/-
  TabletopDice.Word.Range
  ──────────────────────────────────────
  **WORDS AND INTEGERS: which integers are signed 64-bit words.**

  An integer of the range is the integer of its word (`toInt_ofInt_of_fits`),
  and so a negation that stays in the range is that of the integers
  (`toInt_neg_of_fits`).
-/

namespace TabletopDice

/-- The integers from `-2^63` to `2^63 - 1`, which are words. -/
def Fits (i : Int) : Prop := Int64.minValue.toInt ≤ i ∧ i ≤ Int64.maxValue.toInt

instance (i : Int) : Decidable (Fits i) :=
  inferInstanceAs (Decidable (Int64.minValue.toInt ≤ i ∧ i ≤ Int64.maxValue.toInt))

/-- What fits from zero on, fits down to zero. -/
theorem Fits.of_le {m n : Nat} (h : Fits n) (hle : m ≤ n) : Fits m := by
  have hlo : Int64.minValue.toInt ≤ 0 := by decide
  obtain ⟨-, hhi⟩ := h
  exact ⟨by omega, by omega⟩

/-- What is no farther from zero than something that fits, fits on both sides
of it. -/
theorem fits_of_natAbs_le {i : Int} {bound : Nat} (h : i.natAbs ≤ bound) (hb : Fits bound) :
    Fits i := by
  have hends : Int64.minValue.toInt ≤ -Int64.maxValue.toInt := by decide
  obtain ⟨-, hhi⟩ := hb
  exact ⟨by omega, by omega⟩

theorem toInt_ofInt_of_fits {i : Int} (h : Fits i) : (Int64.ofInt i).toInt = i := by
  obtain ⟨hlo, hhi⟩ := h
  rw [Int64.toInt_minValue] at hlo
  rw [Int64.toInt_maxValue] at hhi
  exact Int64.toInt_ofInt_of_le hlo (by omega)

/-- Every word from zero on has a twin below zero. -/
theorem fits_neg_of_nonneg {value : Int64} (h : 0 ≤ value.toInt) : Fits (-value.toInt) := by
  have hends : Int64.minValue.toInt ≤ -Int64.maxValue.toInt := by decide
  have hhi : 0 ≤ Int64.maxValue.toInt := by decide
  have hle := Int64.toInt_le value
  exact ⟨by omega, by omega⟩

/-- Negation is that of the integers, the least word apart, which has no
twin. -/
theorem toInt_neg_of_fits {value : Int64} (h : Fits (-value.toInt)) :
    (-value).toInt = -value.toInt := by
  have hneg : -value = Int64.ofInt (-value.toInt) := by
    rw [Int64.ofInt_neg, Int64.ofInt_toInt]
  rw [hneg, toInt_ofInt_of_fits h]

/-- The sum of words over the integers. -/
def exactSum : List Int64 → Int
  | [] => 0
  | value :: values => value.toInt + exactSum values

@[simp] theorem exactSum_nil : exactSum [] = 0 := rfl

@[simp] theorem exactSum_cons (value : Int64) (values : List Int64) :
    exactSum (value :: values) = value.toInt + exactSum values := rfl

end TabletopDice
