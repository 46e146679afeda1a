/-
  TabletopDice.Term.Display
  ──────────────────────────────────────
  **A TERM AS TEXT, WITHOUT ITS SIGN.**  The sign is written by the sum that
  the term stands in.
-/
import TabletopDice.Term.Basic
import TabletopDice.Text.Numeral
import TabletopDice.Text.SignedSum

namespace TabletopDice

/-- A group as its count, the letter `d` and its number of sides. -/
def Dice.text (d : Dice) : List Char :=
  Decimal.natural d.count.toNat ++ 'd' :: Decimal.natural d.sides.toNat

/-- A constant as its distance from zero. -/
def Constant.text (c : Constant) : List Char :=
  Decimal.natural c.value.toInt.natAbs

namespace Term

/-- The text of a term without its sign. -/
def text : Term → List Char
  | .dice d => d.text
  | .constant c => c.text

/-- The text of a term as a string. -/
def display (t : Term) : String := String.ofList t.text

/-- A term as an addend of a sum. -/
def addend (t : Term) : Addend := ⟨t.isNegative, t.text⟩

end Term

example : (Term.dice (Dice.clamped 3 6).negate).display = "3d6" := by decide
example : (Term.constant ⟨-5⟩).display = "5" := by decide

end TabletopDice
