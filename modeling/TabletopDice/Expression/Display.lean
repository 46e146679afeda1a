/-
  TabletopDice.Expression.Display
  ──────────────────────────────────────
  **AN EXPRESSION AS TEXT: its terms as a signed sum.**

  A well-formed expression prints to a notation that reads back to the same
  terms.  A leading minus sign appears only in front of a negative first term,
  and no notation starts that way.
-/
import TabletopDice.Expression.Basic
import TabletopDice.Term.Display

namespace TabletopDice.Expression

/-- The text of an expression. -/
def text (e : Expression) : List Char := SignedSum.text (e.terms.map Term.addend)

/-- The text of an expression as a string. -/
def display (e : Expression) : String := String.ofList e.text

example :
    display ⟨[.dice (Dice.clamped 3 6), .dice (Dice.clamped 2 4), .constant ⟨-5⟩]⟩
      = "3d6 + 2d4 - 5" := by decide

example : display ⟨[.dice (Dice.clamped 1 20).negate, .constant ⟨2⟩]⟩ = "-1d20 + 2" := by
  decide

end TabletopDice.Expression
