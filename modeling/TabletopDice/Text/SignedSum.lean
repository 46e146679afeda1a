/-
  TabletopDice.Text.SignedSum
  ──────────────────────────────────────
  **A SIGNED SUM AS TEXT: addends without their signs, the signs between
  them.**

  Expressions and rolls are both written this way.  The sign of the first
  addend is written only when it is negative, and then stands right in front;
  every later sign has a space on each side.
-/

namespace TabletopDice

/-- One addend of a sum: its sign and its text without the sign. -/
structure Addend where
  negative : Bool
  body : List Char
deriving DecidableEq

namespace SignedSum

/-- The first addend, with a minus sign if it is negative. -/
def leading (a : Addend) : List Char :=
  if a.negative then '-' :: a.body else a.body

/-- A later addend, after a plus or a minus sign between spaces. -/
def following (a : Addend) : List Char :=
  if a.negative then [' ', '-', ' '] ++ a.body else [' ', '+', ' '] ++ a.body

/-- The text of a sum. -/
def text : List Addend → List Char
  | [] => []
  | a :: more => leading a ++ more.flatMap following

theorem text_cons (a : Addend) (more : List Addend) :
    text (a :: more) = leading a ++ more.flatMap following := rfl

/-- **A sum continues to the right**: what is added to a sum that has an
addend already is written after it, each addend with its sign. -/
theorem text_append {front : List Addend} (h : front ≠ []) (back : List Addend) :
    text (front ++ back) = text front ++ back.flatMap following := by
  cases front with
  | nil => exact absurd rfl h
  | cons a more => simp [text_cons, List.flatMap_append]

end SignedSum

end TabletopDice
