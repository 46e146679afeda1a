/-
  TabletopDice.Proofs.Random.Congruential
  ──────────────────────────────────────
  **THE SEQUENCE COMES THROUGH EVERY STATE.**

  The factor of the sequence is one more than a multiple of four, and the
  increment is odd.  One step then moves any state by an odd number, two steps
  by twice an odd number, and so on: `2 ^ k` steps move it by an odd multiple
  of `2 ^ k`.  A state that differs from another in the bits from `k` on comes
  to agree with it in bit `k` after `2 ^ k` more steps or none, and keeps the
  bits below.

    • `exists_iterate_two_pow` — how far `2 ^ k` steps move a state,
    • `exists_iterate_near` — the bits below `k` agree within `2 ^ k` steps,
    • `exists_iterate_eq` — every state is reached from every state,
    • `exists_iterate_eq_of_cycle` — and lies on every cycle.
-/
import Mathlib.Data.UInt
import Mathlib.Dynamics.PeriodicPts.Defs
import Mathlib.Tactic.Ring
import TabletopDice.Random.Congruential

namespace TabletopDice.Congruential

open scoped UInt64.CommRing

/-! ## §1. The two numbers of the sequence. -/

/-- The factor is one more than a multiple of four. -/
theorem exists_multiplier_eq : ∃ u : UInt64, multiplier = 4 * u + 1 :=
  ⟨multiplier / 4, by decide⟩

/-- The increment is odd. -/
theorem exists_increment_eq : ∃ v : UInt64, increment = 2 * v + 1 :=
  ⟨increment / 2, by decide⟩

/-! ## §2. Two to the power of `k` steps. -/

/-- **`2 ^ k` steps move every state by an odd multiple of `2 ^ k`.**  What is
odd about it depends on the state by a multiple of four only. -/
theorem exists_iterate_two_pow (k : Nat) : ∃ u v : UInt64, ∀ state,
    step^[2 ^ k] state = state + 2 ^ k * (4 * u * state + 2 * v + 1) := by
  induction k with
  | zero =>
      obtain ⟨u, hu⟩ := exists_multiplier_eq
      obtain ⟨v, hv⟩ := exists_increment_eq
      refine ⟨u, v, fun state => ?_⟩
      show state * multiplier + increment = _
      rw [hu, hv]
      ring
  | succ k ih =>
      -- Twice the steps: the second half moves the state that the first half left.
      obtain ⟨u, v, h⟩ := ih
      refine ⟨u + 2 * 2 ^ k * u ^ 2, v + 2 ^ k * u * (2 * v + 1), fun state => ?_⟩
      rw [pow_succ, mul_two, Function.iterate_add_apply, h, h]
      ring

/-! ## §3. From any state to any other. -/

/-- A word is even or odd, as its number is. -/
theorem exists_half (word : UInt64) : ∃ half, word = 2 * half ∨ word = 2 * half + 1 := by
  obtain ⟨half, h⟩ := Nat.even_or_odd' word.toNat
  refine ⟨UInt64.ofNat half, ?_⟩
  rcases h with heven | hodd
  · left
    rw [← UInt64.ofNat_toNat (x := word), heven, UInt64.ofNat_mul]
    rfl
  · right
    rw [← UInt64.ofNat_toNat (x := word), hodd, UInt64.ofNat_add, UInt64.ofNat_mul]
    rfl

/-- **The sequence comes near every state**: in fewer than `2 ^ k` steps it
agrees with it but for a multiple of `2 ^ k`. -/
theorem exists_iterate_near (start target : UInt64) (k : Nat) :
    ∃ n, n < 2 ^ k ∧ ∃ gap, target = step^[n] start + 2 ^ k * gap := by
  induction k with
  | zero =>
      refine ⟨0, Nat.one_pos, target - start, ?_⟩
      show target = start + 2 ^ 0 * (target - start)
      ring
  | succ k ih =>
      obtain ⟨n, hn, gap, hgap⟩ := ih
      have hpow : 2 ^ (k + 1) = 2 ^ k + 2 ^ k := by ring
      -- An even multiple of `2 ^ k` is a multiple of `2 ^ (k + 1)` already.
      obtain ⟨half, heven | hodd⟩ := exists_half gap
      · refine ⟨n, by omega, half, ?_⟩
        rw [hgap, heven]
        ring
      · -- An odd multiple is left, and as much is made up by `2 ^ k` steps more.
        obtain ⟨u, v, hmove⟩ := exists_iterate_two_pow k
        refine ⟨2 ^ k + n, by omega, half - 2 * u * step^[n] start - v, ?_⟩
        rw [Function.iterate_add_apply, hmove, hgap, hodd]
        ring

/-- **Every state is reached from every state**, in fewer steps than there are
states. -/
theorem exists_iterate_eq (start target : UInt64) :
    ∃ n, n < UInt64.size ∧ step^[n] start = target := by
  obtain ⟨n, hn, gap, hgap⟩ := exists_iterate_near start target 64
  -- Agreeing but for a multiple of `2 ^ 64` is agreeing.
  have hwrap : (2 : UInt64) ^ 64 = 0 := by decide +kernel
  rw [hwrap, zero_mul, add_zero] at hgap
  exact ⟨n, hn, hgap.symm⟩

/-- **There is one cycle**: one that holds any state holds all of them. -/
theorem exists_iterate_eq_of_cycle {start : UInt64} {period : Nat} (hpos : 0 < period)
    (hcycle : step^[period] start = start) (target : UInt64) :
    ∃ n, n < period ∧ step^[n] start = target := by
  obtain ⟨n, -, hn⟩ := exists_iterate_eq start target
  -- The steps count round the cycle, so as many are left as go once round.
  have hperiodic : Function.IsPeriodicPt step period start := hcycle
  exact ⟨n % period, Nat.mod_lt n hpos, by rw [hperiodic.iterate_mod_apply, hn]⟩

end TabletopDice.Congruential
