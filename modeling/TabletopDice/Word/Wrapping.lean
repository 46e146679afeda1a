/-
  TabletopDice.Word.Wrapping
  ──────────────────────────────────────
  **SUMS THAT WRAP AROUND in the signed 64-bit range.**

  The faces of a term and the subtotals of a roll are added this way.  The
  sum is the word of the exact sum (`sum_eq_ofInt`), so it is exactly right
  whenever the exact sum is in the range (`toInt_sum_of_fits`), whatever the
  sums on the way.
-/
import TabletopDice.Word.Range

namespace TabletopDice.Wrapping

/-- The values of a list added from the left, starting at zero. -/
def sum (values : List Int64) : Int64 := values.foldl (· + ·) 0

/-- Whatever the start, the exact sum is added to it as one word. -/
theorem foldl_add_eq (values : List Int64) :
    ∀ start : Int64, values.foldl (· + ·) start = start + Int64.ofInt (exactSum values) := by
  -- Wrapping respects addition, so it may be done once at the end.
  induction values with
  | nil =>
      intro start
      show start = start + 0
      rw [Int64.add_zero]
  | cons v values ih =>
      intro start
      rw [List.foldl_cons, ih, exactSum_cons, Int64.ofInt_add, Int64.ofInt_toInt,
        Int64.add_assoc]

/-- **The sum is the word of the exact sum.** -/
theorem sum_eq_ofInt (values : List Int64) : sum values = Int64.ofInt (exactSum values) := by
  show values.foldl (· + ·) 0 = _
  rw [foldl_add_eq, Int64.zero_add]

theorem sum_cons (value : Int64) (values : List Int64) :
    sum (value :: values) = value + sum values := by
  rw [sum_eq_ofInt, sum_eq_ofInt, exactSum_cons, Int64.ofInt_add, Int64.ofInt_toInt]

/-- Turned around one by one, the values add up to the sum turned around. -/
theorem sum_map_neg (values : List Int64) : sum (values.map (- ·)) = -sum values := by
  induction values with
  | nil => rfl
  | cons value values ih =>
      rw [List.map_cons, sum_cons, sum_cons, ih, Int64.neg_add, Int64.sub_eq_add_neg]

/-- **The sum is exact whenever the exact sum fits.** -/
theorem toInt_sum_of_fits {values : List Int64} (h : Fits (exactSum values)) :
    (sum values).toInt = exactSum values := by
  rw [sum_eq_ofInt, toInt_ofInt_of_fits h]

end TabletopDice.Wrapping
