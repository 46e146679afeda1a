/-
  TabletopDice.Term.Bounds
  ──────────────────────────────────────
  **THE LOWEST AND THE HIGHEST TOTAL OF A TERM.**

  Every die shows at least one and at most its number of sides, so a positive
  group totals between `count` and `count * sides`; for a negative group the
  two change places.  A constant is both of its bounds.
-/
import TabletopDice.Term.Basic

namespace TabletopDice

namespace Dice

/-- The number of dice as a total: every die showing one. -/
def everyOne (d : Dice) : Int64 := d.count.toUInt64.toInt64

/-- Every die showing its highest side, held at the end of the range. -/
def everySide (d : Dice) : Int64 :=
  Saturating.mul d.count.toUInt64.toInt64 d.sides.toUInt64.toInt64

/-- The lowest total: for negative dice every die lands on its highest side. -/
def min (d : Dice) : Int64 :=
  match d.sign with
  | .positive => d.everyOne
  | .negative => -d.everySide

/-- The highest total. -/
def max (d : Dice) : Int64 :=
  match d.sign with
  | .positive => d.everySide
  | .negative => -d.everyOne

theorem toInt_everyOne (d : Dice) : d.everyOne.toInt = d.count.toNat :=
  toInt_toInt64_toUInt64 d.count

/-- **Nothing is held back**: at most `maxCount` dice fit, whatever their
sides. -/
theorem toInt_everySide {d : Dice} (h : d.count ≤ maxCount) :
    d.everySide.toInt = (d.count.toNat * d.sides.toNat : Nat) := by
  have hcount : d.count.toNat ≤ 10000 := UInt32.le_iff_toNat_le.1 h
  have hsides : d.sides.toNat < UInt32.size := d.sides.toNat_lt
  -- A group has at most ten thousand dice, and no side outgrows 32 bits.
  have hproduct : d.count.toNat * d.sides.toNat ≤ 10000 * UInt32.size :=
    Nat.mul_le_mul hcount (Nat.le_of_lt hsides)
  have hfits : Fits (10000 * UInt32.size : Nat) := by decide
  unfold everySide Saturating.mul
  rw [toInt_toInt64_toUInt64, toInt_toInt64_toUInt64, ← Int.natCast_mul]
  exact Saturating.toInt_ofIntClamp_of_fits (hfits.of_le hproduct)

/-- The lowest face of one die of the group, under the sign. -/
def lowestFace (d : Dice) : Int :=
  match d.sign with
  | .positive => 1
  | .negative => -d.sides.toNat

/-- The highest face of one die of the group, under the sign. -/
def highestFace (d : Dice) : Int :=
  match d.sign with
  | .positive => d.sides.toNat
  | .negative => -1

theorem neg_sides_le_lowestFace (d : Dice) : -(d.sides.toNat : Int) ≤ d.lowestFace := by
  unfold lowestFace
  cases d.sign with
  | positive =>
      show -(d.sides.toNat : Int) ≤ 1
      omega
  | negative => exact Int.le_refl _

theorem highestFace_le_sides (d : Dice) : d.highestFace ≤ d.sides.toNat := by
  unfold highestFace
  cases d.sign with
  | positive => exact Int.le_refl _
  | negative =>
      show (-1 : Int) ≤ d.sides.toNat
      omega

/-- **The lowest total is every die on its lowest face.** -/
theorem toInt_min {d : Dice} (h : d.count ≤ maxCount) :
    d.min.toInt = d.count.toNat * d.lowestFace := by
  have hside := toInt_everySide h
  have hnonneg : 0 ≤ d.everySide.toInt := by omega
  -- Under a minus sign the highest sides come first.
  unfold min lowestFace
  cases d.sign with
  | positive =>
      show d.everyOne.toInt = d.count.toNat * 1
      rw [toInt_everyOne, Int.mul_one]
  | negative =>
      show (Sign.negative.apply d.everySide).toInt = d.count.toNat * -(d.sides.toNat : Int)
      rw [Sign.toInt_apply _ (fits_neg_of_nonneg hnonneg), hside, Int.mul_neg]
      rfl

/-- **The highest total is every die on its highest face.** -/
theorem toInt_max {d : Dice} (h : d.count ≤ maxCount) :
    d.max.toInt = d.count.toNat * d.highestFace := by
  have hone := toInt_everyOne d
  have hnonneg : 0 ≤ d.everyOne.toInt := by omega
  unfold max highestFace
  cases d.sign with
  | positive =>
      show d.everySide.toInt = d.count.toNat * (d.sides.toNat : Int)
      rw [toInt_everySide h, Int.natCast_mul]
  | negative =>
      show (Sign.negative.apply d.everyOne).toInt = d.count.toNat * -1
      rw [Sign.toInt_apply _ (fits_neg_of_nonneg hnonneg), hone, Int.mul_neg, Int.mul_one]
      rfl

end Dice

namespace Constant

/-- A constant has one total. -/
def min (c : Constant) : Int64 := c.value

/-- A constant has one total. -/
def max (c : Constant) : Int64 := c.value

end Constant

namespace Term

/-- The lowest total of a term. -/
def min : Term → Int64
  | .dice d => d.min
  | .constant c => c.min

/-- The highest total of a term. -/
def max : Term → Int64
  | .dice d => d.max
  | .constant c => c.max

end Term

example : (Dice.clamped 2 6).min = 2 ∧ (Dice.clamped 2 6).max = 12 := by decide
example : (Dice.clamped 5 8).negate.min = -40 ∧ (Dice.clamped 5 8).negate.max = -5 := by decide

end TabletopDice
