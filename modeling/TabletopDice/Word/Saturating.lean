/-
  TabletopDice.Word.Saturating
  ──────────────────────────────────────
  **ARITHMETIC THAT STOPS AT THE ENDS of the signed 64-bit range.**

  A sum or a product is taken over the integers and then brought back to the
  nearest value of the range, so a bound that outgrows 64 bits stays at the
  end it ran into.  `toInt_ofIntClamp` says which value that is; every other
  statement is read off it:

    • `toInt_add`, `toInt_abs` — the operation, then the clamp,
    • `add_mono` — a larger summand never makes the sum smaller.
-/
import TabletopDice.Word.Range

namespace TabletopDice.Saturating

/-! ## §1. The clamp. -/

/-- **The clamp over the integers**: what is below the range becomes its least
value, what is above becomes its greatest. -/
theorem toInt_ofIntClamp (i : Int) :
    (Int64.ofIntClamp i).toInt = max Int64.minValue.toInt (min i Int64.maxValue.toInt) := by
  have hends : Int64.minValue.toInt ≤ Int64.maxValue.toInt := by decide
  -- Within the range, above it, or below it.
  by_cases hl : Int64.minValue.toInt ≤ i
  · by_cases hr : i ≤ Int64.maxValue.toInt
    · rw [Int64.toInt_ofIntClamp hl hr]
      omega
    · have h : Int64.ofIntClamp i = Int64.maxValue := by
        simp only [Int64.ofIntClamp, hl, hr, dite_true, dite_false]
      rw [h]
      omega
  · have h : Int64.ofIntClamp i = Int64.minValue := by
      simp only [Int64.ofIntClamp, hl, dite_false]
    rw [h]
    omega

/-- What is in the range stays as it is. -/
theorem toInt_ofIntClamp_of_fits {i : Int} (h : Fits i) : (Int64.ofIntClamp i).toInt = i :=
  Int64.toInt_ofIntClamp h.1 h.2

/-! ## §2. The operations. -/

/-- The sum, held at the end of the range it would leave. -/
def add (a b : Int64) : Int64 := Int64.ofIntClamp (a.toInt + b.toInt)

/-- The product, held at the end of the range it would leave. -/
def mul (a b : Int64) : Int64 := Int64.ofIntClamp (a.toInt * b.toInt)

/-- The distance from zero.  The least value has no positive twin, so its
distance is held at the greatest. -/
def abs (a : Int64) : Int64 := Int64.ofIntClamp a.toInt.natAbs

/-- The values of a list added from the left, starting at zero and **held at
the ends after each step**. -/
def sum (values : List Int64) : Int64 := values.foldl add 0

theorem toInt_add (a b : Int64) :
    (add a b).toInt
      = max Int64.minValue.toInt (min (a.toInt + b.toInt) Int64.maxValue.toInt) :=
  toInt_ofIntClamp _

theorem toInt_abs (a : Int64) :
    (abs a).toInt = min (a.toInt.natAbs : Int) Int64.maxValue.toInt := by
  have hlo : Int64.minValue.toInt ≤ 0 := by decide
  have hhi : 0 ≤ Int64.maxValue.toInt := by decide
  unfold abs
  rw [toInt_ofIntClamp]
  omega

/-- **The sum is monotone**, although a clamped sum can no longer be undone. -/
theorem add_mono {a a' b b' : Int64} (ha : a.toInt ≤ a'.toInt) (hb : b.toInt ≤ b'.toInt) :
    (add a b).toInt ≤ (add a' b').toInt := by
  rw [toInt_add, toInt_add]
  omega

example : add Int64.maxValue 1 = Int64.maxValue := by decide
example : abs Int64.minValue = Int64.maxValue := by decide

end TabletopDice.Saturating
