/-
  TabletopDice.Proofs.Roll.Attainment
  ──────────────────────────────────────
  **EVERY TOTAL BETWEEN THE BOUNDS CAN BE ROLLED.**

  A die shows every face up to its number of sides, and intervals add up
  without a gap: what lies between the sums of the ends is a sum of values
  from each.  That carries from the faces of a die to the totals of a group,
  and from the totals of the terms to those of the expression.

    • `exists_add_between` — two intervals,
    • `Dice.exists_part` — the faces of a group, die by die,
    • `exists_deal` — the terms, one by one,
    • `exists_firstTry` — words for whatever faces are wanted,
    • `Expression.attains_between` — the totals of an accepted notation.
-/
import TabletopDice.Proofs.Random.Faces
import TabletopDice.Proofs.Roll.Counted
import TabletopDice.Proofs.Roll.Exactness

namespace TabletopDice

/-! ## §1. Intervals. -/

/-- **Two intervals add up to an interval.** -/
theorem exists_add_between {low high low' high' t : Int} (h : low ≤ high) (h' : low' ≤ high')
    (hlo : low + low' ≤ t) (hhi : t ≤ high + high') :
    ∃ i j, i + j = t ∧ (low ≤ i ∧ i ≤ high) ∧ low' ≤ j ∧ j ≤ high' := by
  -- The first takes as little as the second can make up for.
  refine ⟨max low (t - high'), t - max low (t - high'), ?_, ?_, ?_⟩
  · omega
  · omega
  · omega

/-! ## §2. The totals of a term. -/

namespace Dice

/-- The ends of a die's faces are in order, also under a minus sign. -/
theorem lowestFace_le_highestFace {d : Dice} (h : 1 ≤ d.sides.toNat) :
    d.lowestFace ≤ d.highestFace := by
  unfold lowestFace highestFace
  cases d.sign with
  | positive =>
      show (1 : Int) ≤ d.sides.toNat
      omega
  | negative =>
      show -(d.sides.toNat : Int) ≤ -1
      omega

/-- **Every number from the lowest to the highest face is a face**, under the
sign. -/
theorem exists_face {d : Dice} {v : Int} (hlo : d.lowestFace ≤ v) (hhi : v ≤ d.highestFace) :
    ∃ face, Die.Shows face d.sides ∧ (d.sign.apply face.toUInt64.toInt64).toInt = v := by
  have hlt : d.sides.toNat < UInt32.size := d.sides.toNat_lt
  -- Under either sign the number of the face is the distance of the value from zero.
  obtain ⟨n, hn, hv⟩ : ∃ n : Nat, (1 ≤ n ∧ n ≤ d.sides.toNat) ∧ d.sign.times n = v := by
    unfold lowestFace at hlo
    unfold highestFace at hhi
    refine ⟨v.natAbs, ?_⟩
    cases hsign : d.sign with
    | positive =>
        rw [hsign] at hlo hhi
        have hpos : 1 ≤ v ∧ v ≤ d.sides.toNat := ⟨hlo, hhi⟩
        exact ⟨by omega, show (v.natAbs : Int) = v by omega⟩
    | negative =>
        rw [hsign] at hlo hhi
        have hneg : -(d.sides.toNat : Int) ≤ v ∧ v ≤ -1 := ⟨hlo, hhi⟩
        exact ⟨by omega, show -(v.natAbs : Int) = v by omega⟩
  -- The number is no larger than the sides, so a word holds it.
  have htoNat : (UInt32.ofNat n).toNat = n := UInt32.toNat_ofNat_of_lt' (by omega)
  refine ⟨UInt32.ofNat n, ?_, ?_⟩
  · unfold Die.Shows
    rw [htoNat]
    exact hn
  · rw [Sign.toInt_apply_face, htoNat, hv]

/-- **A number of dice totals everything from the sum of the lowest faces to
that of the highest.** -/
theorem exists_faces {d : Dice} (hsides : 1 ≤ d.sides.toNat) (n : Nat) :
    ∀ t : Int, n * d.lowestFace ≤ t → t ≤ n * d.highestFace →
      ∃ shown, List.Forall₂ Die.Shows shown (List.replicate n d.sides) ∧
        exactSum (shown.map fun face => d.sign.apply face.toUInt64.toInt64) = t := by
  have hends := lowestFace_le_highestFace hsides
  -- Along the number of dice: the first die shows what leaves the rest of the total
  -- to the others.
  induction n with
  | zero =>
      intro t hlo hhi
      refine ⟨[], .nil, ?_⟩
      rw [List.map_nil, exactSum_nil]
      omega
  | succ n ih =>
      intro t hlo hhi
      push_cast at hlo hhi
      rw [Int.add_mul, Int.one_mul, Int.add_comm] at hlo hhi
      have hmore : n * d.lowestFace ≤ n * d.highestFace :=
        Int.mul_le_mul_of_nonneg_left hends (Int.natCast_nonneg n)
      obtain ⟨v, rest, rfl, ⟨hvlo, hvhi⟩, hrlo, hrhi⟩ :=
        exists_add_between hends hmore hlo hhi
      obtain ⟨face, hface, rfl⟩ := exists_face hvlo hvhi
      obtain ⟨shown, hshown, rfl⟩ := ih rest hrlo hrhi
      exact ⟨face :: shown, .cons hface hshown, rfl⟩

/-- A group of dice totals everything between its bounds. -/
theorem exists_part {d : Dice} (h : d.WithinLimits) {t : Int} (hlo : d.min.toInt ≤ t)
    (hhi : t ≤ d.max.toInt) :
    ∃ shown, List.Forall₂ Die.Shows shown (List.replicate d.count.toNat d.sides) ∧
      (d.part shown).total.toInt = t := by
  have hsides : 1 ≤ d.sides.toNat := UInt32.le_iff_toNat_le.1 h.2.2
  rw [toInt_min h.2.1] at hlo
  rw [toInt_max h.2.1] at hhi
  obtain ⟨shown, hshown, hsum⟩ := exists_faces hsides d.count.toNat t hlo hhi
  exact ⟨shown, hshown, (exact_part h hshown).adds.total_eq.trans hsum⟩

theorem min_le_max {d : Dice} (h : d.WithinLimits) : d.min.toInt ≤ d.max.toInt := by
  have hsides : 1 ≤ d.sides.toNat := UInt32.le_iff_toNat_le.1 h.2.2
  rw [toInt_min h.2.1, toInt_max h.2.1]
  exact Int.mul_le_mul_of_nonneg_left (lowestFace_le_highestFace hsides) (Int.natCast_nonneg _)

end Dice

namespace Term

/-- Only the dice of a term need their limits. -/
theorem min_le_max_of_dice {t : Term} (h : ∀ d, t = .dice d → d.WithinLimits) :
    t.min.toInt ≤ t.max.toInt := by
  cases t with
  | dice d => exact Dice.min_le_max (h d rfl)
  | constant c => exact Int.le_refl _

theorem min_le_max {t : Term} (h : t.WithinLimits) : t.min.toInt ≤ t.max.toInt :=
  min_le_max_of_dice fun d hd => by
    rw [hd] at h
    exact h

/-- **A term totals everything between its bounds.** -/
theorem exists_part {t : Term} (h : t.WithinLimits) {i : Int} (hlo : t.min.toInt ≤ i)
    (hhi : i ≤ t.max.toInt) :
    ∃ shown, List.Forall₂ Die.Shows shown t.dieSides ∧ (t.part shown).total.toInt = i := by
  cases t with
  | dice d => exact Dice.exists_part h hlo hhi
  -- Both bounds of a constant are its value.
  | constant c => exact ⟨[], .nil, Int.le_antisymm hlo hhi⟩

end Term

/-! ## §3. The totals of all terms. -/

/-- **The terms together total everything between the sums of their bounds.** -/
theorem exists_deal {ts : List Term} (h : ∀ t ∈ ts, t.WithinLimits) :
    ∀ i : Int, exactSum (ts.map Term.min) ≤ i → i ≤ exactSum (ts.map Term.max) →
      ∃ faces, List.Forall₂ Die.Shows faces (ts.flatMap Term.dieSides) ∧
        exactSum ((deal ts faces).map Part.total) = i := by
  -- Along the terms, for every total: what the first term cannot take, the others can.
  induction ts with
  | nil =>
      intro i hlo hhi
      exact ⟨[], .nil, Int.le_antisymm hlo hhi⟩
  | cons t ts ih =>
      have ht := h t List.mem_cons_self
      have hts : ∀ u ∈ ts, u.WithinLimits := fun u hu => h u (List.mem_cons_of_mem t hu)
      intro i hlo hhi
      have hmore : exactSum (ts.map Term.min) ≤ exactSum (ts.map Term.max) :=
        exactSum_map_le fun u hu => Term.min_le_max (hts u hu)
      obtain ⟨j, rest, rfl, ⟨hjlo, hjhi⟩, hrlo, hrhi⟩ :=
        exists_add_between (Term.min_le_max ht) hmore hlo hhi
      obtain ⟨shown, hshown, rfl⟩ := Term.exists_part ht hjlo hjhi
      obtain ⟨faces, hfaces, rfl⟩ := ih hts rest hrlo hrhi
      refine ⟨shown ++ faces, List.rel_append hshown hfaces, ?_⟩
      -- As many faces as the first term has dice are dealt to it.
      rw [deal_cons_append hshown.length_eq]
      rfl

/-- **Whatever faces the dice can show, there are words for them**, each
accepted at the first try. -/
theorem exists_firstTry {dice faces : List UInt32} (h : List.Forall₂ Die.Shows faces dice) :
    ∃ words, FirstTry dice words faces := by
  induction h with
  | nil => exact ⟨[], .nil⟩
  | cons hface _ ih =>
      -- Each die has a word for its face, and no word is shared.
      obtain ⟨word, hword⟩ := Die.exists_word hface
      obtain ⟨words, hwords⟩ := ih
      exact ⟨word :: words, .cons hword hwords⟩

/-- The number of dice of a term. -/
def Term.diceCount : Term → Nat
  | .dice d => d.count.toNat
  | .constant _ => 0

theorem Term.length_dieSides (t : Term) : t.dieSides.length = t.diceCount := by
  cases t with
  | dice d => exact List.length_replicate
  | constant c => rfl

namespace Expression

theorem length_dieSides (e : Expression) :
    e.dieSides.length = (e.terms.map Term.diceCount).sum := by
  show (e.terms.flatMap Term.dieSides).length = _
  rw [List.length_flatMap]
  exact congrArg List.sum (List.map_congr_left fun t _ => t.length_dieSides)

/-- **The total can be rolled**: on some list of words, as long as there are
dice, the expression draws each word and no other, so it rejects none, and
rolls this total. -/
def Attains (e : Expression) (total : Int) : Prop :=
  ∃ words : List UInt32, words.length = (e.terms.map Term.diceCount).sum ∧
    ∀ fill : UInt64, ∃ r : Roll,
      Outcome (fun patience => e.roll patience) (Tap.fresh (ListedSource.mk words fill)) r
          ⟨⟨[], fill⟩, words.length⟩ ∧
        r.total.toInt = total

/-- **Faces that the dice can show are rolled** on some words, one for each die. -/
theorem attains_dealt {e : Expression} {faces : List UInt32}
    (h : List.Forall₂ Die.Shows faces e.dieSides) :
    e.Attains (e.dealt faces).total.toInt := by
  -- One word for each die, and every word is accepted: the tap counts no other.
  obtain ⟨words, hwords⟩ := exists_firstTry h
  refine ⟨words, by rw [hwords.length_eq, length_dieSides], fun fill => ?_⟩
  have hdraws := hwords.draws fill 0
  rw [Nat.zero_add] at hdraws
  exact ⟨e.dealt faces, outcome_of_draws hdraws, rfl⟩

/-- **THE BOUNDS ARE TIGHT AND THERE ARE NO GAPS.**  An accepted expression of
at most 214748 terms can roll every total between its bounds, the bounds
themselves among them. -/
theorem attains_between {s : String} {e : Expression} (he : parse s = .ok e)
    (hfew : e.length ≤ 214748) :
    (∀ total : Int, e.min.toInt ≤ total → total ≤ e.max.toInt → e.Attains total) ∧
      e.Attains e.min.toInt ∧ e.Attains e.max.toInt := by
  obtain ⟨-, -, hlimits⟩ := wellFormed_of_parse he
  obtain ⟨hmin, hmax⟩ := addsExactly_bounds hlimits hfew
  have hall : ∀ total : Int, e.min.toInt ≤ total → total ≤ e.max.toInt → e.Attains total := by
    intro total hlo hhi
    -- No bound was held at an end, so the bounds are the sums of the terms' bounds.
    rw [hmin.total_eq] at hlo
    rw [hmax.total_eq] at hhi
    obtain ⟨faces, hfaces, hsum⟩ := exists_deal hlimits total hlo hhi
    -- Nor does the total of a roll overflow: it is the sum that was asked for.
    have htotal : (e.dealt faces).total.toInt = total :=
      (exact_dealt hlimits hfew hfaces).adds.total_eq.trans hsum
    exact htotal ▸ attains_dealt hfaces
  have hends : e.min.toInt ≤ e.max.toInt := by
    rw [hmin.total_eq, hmax.total_eq]
    exact exactSum_map_le fun t ht => Term.min_le_max (hlimits t ht)
  exact ⟨hall, hall _ (Int.le_refl _) hends, hall _ hends (Int.le_refl _)⟩

/-- Two dice less another one: both ends, and a total between them. -/
theorem attains_two_dice_less_one :
    parse "2d6 - 1d4" = .ok ⟨[.dice ⟨2, 6, .positive⟩, .dice ⟨1, 4, .negative⟩]⟩ ∧
      Attains ⟨[.dice ⟨2, 6, .positive⟩, .dice ⟨1, 4, .negative⟩]⟩ (-2) ∧
      Attains ⟨[.dice ⟨2, 6, .positive⟩, .dice ⟨1, 4, .negative⟩]⟩ 11 ∧
      Attains ⟨[.dice ⟨2, 6, .positive⟩, .dice ⟨1, 4, .negative⟩]⟩ 5 := by
  have hparse : parse "2d6 - 1d4"
      = .ok ⟨[.dice ⟨2, 6, .positive⟩, .dice ⟨1, 4, .negative⟩]⟩ := by decide +kernel
  obtain ⟨hall, hmin, hmax⟩ := attains_between hparse (by decide)
  exact ⟨hparse, hmin, hmax, hall 5 (by decide) (by decide)⟩

end Expression

end TabletopDice
