/-
  TabletopDice.Roll.Display
  ──────────────────────────────────────
  **A ROLL AS TEXT: the breakdown of its total.**

  Each group shows its faces in brackets and each constant itself, all without
  signs; the signs stand between them as in an expression, so
  `3d6 - 1d4 + 2` may roll into `[4, 1, 6] - [3] + 2`.
-/
import TabletopDice.Roll.Basic
import TabletopDice.Term.Display

namespace TabletopDice

namespace Part

/-- The faces of a group in brackets, without their signs. -/
def bracketed (faces : List Int64) : List Char :=
  '[' :: ([',', ' '].intercalate
    (faces.map fun face => Decimal.natural face.toInt.natAbs) ++ [']'])

/-- What a term rolled, without its sign. -/
def text (p : Part) : List Char :=
  match p.term with
  | .dice _ => bracketed p.faces
  | .constant c => c.text

/-- A part as an addend of the breakdown, under the sign of its term. -/
def addend (p : Part) : Addend := ⟨p.term.isNegative, p.text⟩

end Part

namespace Roll

/-- The text of a roll. -/
def text (r : Roll) : List Char := SignedSum.text (r.parts.map Part.addend)

/-- The text of a roll as a string. -/
def display (r : Roll) : String := String.ofList r.text

/-- The breakdown and its total, as in `[5, 6] + 3 = 14`. -/
def equation (r : Roll) : List Char :=
  r.text ++ [' ', '=', ' '] ++ Decimal.signed r.total.toInt

end Roll

example :
    Roll.display (Roll.ofParts
      [(Dice.clamped 3 6).part [4, 1, 6], (Dice.clamped 1 4).negate.part [3],
        Constant.roll ⟨2⟩]) = "[4, 1, 6] - [3] + 2" := by decide

end TabletopDice
