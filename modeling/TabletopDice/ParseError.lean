/-
  TabletopDice.ParseError
  ──────────────────────────────────────
  **WHY A TEXT IS NO DICE EXPRESSION.**

  A text can stop being readable somewhere, end right after an operator, or
  hold nothing at all.  Only the first has a position: the byte offset where
  reading stopped, shown with the characters found there.
-/
import TabletopDice.Text.Utf8

namespace TabletopDice

/-- The reasons for refusing a text. -/
inductive ParseError
  | unreadable (position : Nat) (excerpt : String)
  | trailingOperator
  | empty
deriving DecidableEq

namespace ParseError

/-- The number of unread characters that an error shows. -/
def excerptLength : Nat := 10

/-- Neither a term nor an operator could be read where `rest`, the end of
`source`, begins. -/
def unreadableAt (source rest : List Char) : ParseError :=
  .unreadable (Utf8.size source - Utf8.size rest)
    (String.ofList (rest.take excerptLength))

/-- The error of a source that cannot be read from a byte offset on. -/
def atOffset (source : String) (offset : Nat) : ParseError :=
  unreadableAt source.toList (Utf8.drop offset source.toList)

/-- The byte offset where reading stopped, if the error has one. -/
def position? : ParseError → Option Nat
  | .unreadable position _ => some position
  | .trailingOperator => none
  | .empty => none

/-- The error in words. -/
def message : ParseError → String
  | .unreadable position excerpt => s!"parse error at position {position} - '{excerpt}'"
  | .trailingOperator => "parse error at end - expression cannot end with an operator"
  | .empty => "expression is empty"

end ParseError

example :
    (ParseError.atOffset "2d6 + abcdefghijklmnop" 6).message
      = "parse error at position 6 - 'abcdefghij'" := by decide

end TabletopDice
