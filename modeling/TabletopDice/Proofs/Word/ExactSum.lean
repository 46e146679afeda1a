/-
  TabletopDice.Proofs.Word.ExactSum
  ──────────────────────────────────────
  **WHEN A SUM OF WORDS IS THE SUM OF THE NUMBERS.**

  `AddsExactly values total` says that a total is the sum of the values over
  the integers and that no sum on the way to it leaves the signed 64-bit
  range.  A sum that wraps around and a sum that is held at the ends then both
  come out right:

    • `addsExactly_wrapping`, `addsExactly_saturating` — when every sum on the
      way fits,
    • `fits_of_bounded` — which is so when there are few and small values.

Sums of the same entries under two functions compare as the functions do, the
exact ones as well as those held at the ends:

    • `exactSum_map_le`, `saturating_sum_map_le` — entry by entry,
    • `eq_of_exactSum_map_eq` — exact sums leave no room for a difference.
-/
import Mathlib.Data.List.Infix
import TabletopDice.Word.Saturating
import TabletopDice.Word.Wrapping

namespace TabletopDice

/-! ## §1. Sums that fit. -/

/-- **Every sum on the way fits**: the sum of each front part of the list. -/
def PartialSumsFit (values : List Int64) : Prop :=
  ∀ front, front <+: values → Fits (exactSum front)

instance (values : List Int64) : Decidable (PartialSumsFit values) :=
  decidable_of_iff (∀ front ∈ values.inits, Fits (exactSum front)) (by
    simp only [List.mem_inits, PartialSumsFit])

/-- The total is the sum over the integers, and every sum on the way to it
fits. -/
structure AddsExactly (values : List Int64) (total : Int64) : Prop where
  total_eq : total.toInt = exactSum values
  partials : PartialSumsFit values

/-! ## §2. Both ways of adding are exact. -/

/-- A wrapping sum needs only its end to fit. -/
theorem addsExactly_wrapping {values : List Int64} (h : PartialSumsFit values) :
    AddsExactly values (Wrapping.sum values) :=
  ⟨Wrapping.toInt_sum_of_fits (h values (List.prefix_refl values)), h⟩

/-- A sum held at the ends needs every sum on the way to fit: the start is
carried along, since each step is held at the ends on its own. -/
theorem toInt_foldl_saturating (values : List Int64) :
    ∀ start : Int64, (∀ front, front <+: values → Fits (start.toInt + exactSum front)) →
      (values.foldl Saturating.add start).toInt = start.toInt + exactSum values := by
  induction values with
  | nil =>
      intro start _
      rw [exactSum_nil, Int.add_zero]
      rfl
  | cons v values ih =>
      intro start h
      -- The first step fits, so it is exact, and the others start behind it.
      have hfirst : Fits (start.toInt + exactSum [v]) := h [v] ⟨values, rfl⟩
      rw [exactSum_cons, exactSum_nil, Int.add_zero] at hfirst
      have hstep : (Saturating.add start v).toInt = start.toInt + v.toInt :=
        Saturating.toInt_ofIntClamp_of_fits hfirst
      rw [List.foldl_cons, ih, hstep, exactSum_cons, Int.add_assoc]
      -- The sums on the way behind the first step are those on the way of the whole list.
      intro front hfront
      have hlonger := h (v :: front) (List.cons_prefix_cons.2 ⟨rfl, hfront⟩)
      rw [exactSum_cons, ← Int.add_assoc] at hlonger
      rw [hstep]
      exact hlonger

/-- A sum held at the ends is exact when every sum on the way fits. -/
theorem addsExactly_saturating {values : List Int64} (h : PartialSumsFit values) :
    AddsExactly values (Saturating.sum values) := by
  refine ⟨?_, h⟩
  show (values.foldl Saturating.add 0).toInt = exactSum values
  rw [toInt_foldl_saturating, Int64.toInt_zero, Int.zero_add]
  intro front hfront
  rw [Int64.toInt_zero, Int.zero_add]
  exact h front hfront

/-- So it does not matter then how the values are added. -/
theorem saturating_sum_eq_wrapping_sum {values : List Int64} (h : PartialSumsFit values) :
    Saturating.sum values = Wrapping.sum values := by
  have hsaturating := (addsExactly_saturating h).total_eq
  have hwrapping := (addsExactly_wrapping h).total_eq
  exact Int64.toInt.inj (hsaturating.trans hwrapping.symm)

/-! ## §3. Few and small values. -/

/-- A sum is no further from zero than as many values of the largest size. -/
theorem natAbs_exactSum_le {bound : Nat} {values : List Int64}
    (h : ∀ v ∈ values, v.toInt.natAbs ≤ bound) :
    (exactSum values).natAbs ≤ values.length * bound := by
  induction values with
  | nil =>
      rw [exactSum_nil]
      exact Nat.zero_le _
  | cons v values ih =>
      have hv := h v List.mem_cons_self
      have hrest := ih fun u hu => h u (List.mem_cons_of_mem v hu)
      rw [exactSum_cons, List.length_cons, Nat.succ_mul]
      omega

/-- **Few and small values**: when as many values of the largest size still
fit, every sum on the way does. -/
theorem fits_of_bounded {bound : Nat} {values : List Int64}
    (h : ∀ v ∈ values, v.toInt.natAbs ≤ bound)
    (hfew : Fits (values.length * bound : Nat)) : PartialSumsFit values := by
  intro front hfront
  have hsum := natAbs_exactSum_le fun v hv => h v (hfront.subset hv)
  -- A front part of the list has no more values than the list.
  have hlength : front.length * bound ≤ values.length * bound :=
    Nat.mul_le_mul_right bound hfront.length_le
  exact fits_of_natAbs_le (Nat.le_trans hsum hlength) hfew

/-! ## §4. Comparing sums. -/

section Comparing

variable {α : Type} {f g : α → Int64}

/-- What holds of every entry holds of the sums. -/
theorem exactSum_map_le {entries : List α} (h : ∀ a ∈ entries, (f a).toInt ≤ (g a).toInt) :
    exactSum (entries.map f) ≤ exactSum (entries.map g) := by
  induction entries with
  | nil => exact Int.le_refl _
  | cons a entries ih =>
      have ha := h a List.mem_cons_self
      have hrest := ih fun b hb => h b (List.mem_cons_of_mem a hb)
      rw [List.map_cons, List.map_cons, exactSum_cons, exactSum_cons]
      omega

/-- **A difference in one entry is never made up for by the others**: sums
that are the same were made of the same entries. -/
theorem eq_of_exactSum_map_eq {entries : List α} (h : ∀ a ∈ entries, (f a).toInt ≤ (g a).toInt)
    (heq : exactSum (entries.map f) = exactSum (entries.map g)) :
    ∀ a ∈ entries, (f a).toInt = (g a).toInt := by
  induction entries with
  | nil =>
      intro a ha
      cases ha
  | cons b entries ih =>
      have hb := h b List.mem_cons_self
      have hrest : ∀ a ∈ entries, (f a).toInt ≤ (g a).toInt :=
        fun a ha => h a (List.mem_cons_of_mem b ha)
      -- The first entry can only be smaller, and so can the sum of the others.
      have hsums := exactSum_map_le hrest
      rw [List.map_cons, List.map_cons, exactSum_cons, exactSum_cons] at heq
      intro a ha
      rcases List.mem_cons.1 ha with rfl | ha
      · omega
      · exact ih hrest (by omega) a ha

/-- **A sum that was held at an end keeps its place among the sums.**  What was
cut off cannot be had back by undoing the steps, but every step is monotone in
the sum so far and in the entry. -/
theorem foldl_saturating_le {entries : List α} (h : ∀ a ∈ entries, (f a).toInt ≤ (g a).toInt) :
    ∀ low high : Int64, low.toInt ≤ high.toInt →
      ((entries.map f).foldl Saturating.add low).toInt
        ≤ ((entries.map g).foldl Saturating.add high).toInt := by
  induction entries with
  | nil =>
      intro low high hstart
      exact hstart
  | cons a entries ih =>
      intro low high hstart
      have hstep := Saturating.add_mono hstart (h a List.mem_cons_self)
      exact ih (fun b hb => h b (List.mem_cons_of_mem a hb)) _ _ hstep

/-- Sums held at the ends keep the order of their entries. -/
theorem saturating_sum_map_le {entries : List α}
    (h : ∀ a ∈ entries, (f a).toInt ≤ (g a).toInt) :
    Saturating.sum (entries.map f) ≤ Saturating.sum (entries.map g) :=
  Int64.le_iff_toInt_le.2 (foldl_saturating_le h 0 0 (Int.le_refl _))

end Comparing

/-- Entries that keep to two bounds add up to between as many of each. -/
theorem exactSum_between {low high : Int} {values : List Int64}
    (h : ∀ v ∈ values, low ≤ v.toInt ∧ v.toInt ≤ high) :
    values.length * low ≤ exactSum values ∧ exactSum values ≤ values.length * high := by
  induction values with
  | nil =>
      rw [exactSum_nil, List.length_nil]
      omega
  | cons v values ih =>
      have hv := h v List.mem_cons_self
      have hrest := ih fun u hu => h u (List.mem_cons_of_mem v hu)
      rw [exactSum_cons, List.length_cons]
      push_cast
      rw [Int.add_mul, Int.add_mul]
      omega

end TabletopDice
