/-
  TabletopDice.Roll.Basic
  ──────────────────────────────────────
  **ROLLING: an expression and a source make a roll.**

  The dice of a group, and then the terms, are rolled from left to right over
  one source.  A roll keeps every face under the sign of its term, the total
  of each term and the total of all.  A constant draws nothing and shows one
  face, its value.
-/
import TabletopDice.Expression.Basic
import TabletopDice.Random.Die
import TabletopDice.Word.Wrapping

namespace TabletopDice

/-! ## §1. Rolls. -/

/-- What one term rolled: its faces, already signed, and their total. -/
structure Part where
  term : Term
  faces : List Int64
  total : Int64
deriving DecidableEq

/-- What an expression rolled: its parts in the order of the terms, and the
total of all. -/
structure Roll where
  parts : List Part
  total : Int64
deriving DecidableEq

namespace Roll

/-- The roll of given parts. -/
def ofParts (parts : List Part) : Roll := ⟨parts, Wrapping.sum (parts.map Part.total)⟩

/-- The terms that were rolled. -/
def terms (r : Roll) : List Term := r.parts.map Part.term

/-- The total of each term. -/
def subtotals (r : Roll) : List Int64 := r.parts.map Part.total

/-- The faces of each term. -/
def faces (r : Roll) : List (List Int64) := r.parts.map Part.faces

end Roll

/-! ## §2. Rolling. -/

section Rolling

variable {σ : Type} [WordSource σ]

namespace Dice

/-- Throw every die of a group, from left to right. -/
def throwAll (patience : Nat) (d : Dice) : Roller σ (List UInt32) :=
  (List.replicate d.count.toNat d.sides).mapM fun sides => Die.throw sides patience

/-- The part of a group whose dice showed the given faces. -/
def part (d : Dice) (shown : List UInt32) : Part :=
  let faces := shown.map fun face => d.sign.apply face.toUInt64.toInt64
  ⟨.dice d, faces, Wrapping.sum faces⟩

/-- Roll every die of a group once. -/
def roll (patience : Nat) (d : Dice) : Roller σ Part := do
  return d.part (← d.throwAll patience)

end Dice

/-- A constant shows its value. -/
def Constant.roll (c : Constant) : Part := ⟨.constant c, [c.value], c.value⟩

/-- Roll a term.  Constants leave the source alone. -/
def Term.roll (patience : Nat) : Term → Roller σ Part
  | .dice d => d.roll patience
  | .constant c => return c.roll

namespace Expression

/-- **Roll every term, in order.** -/
def roll (patience : Nat) (e : Expression) : Roller σ Roll := do
  return Roll.ofParts (← e.terms.mapM (Term.roll patience))

/-- Roll an expression a number of times over one source. -/
def rollTimes (patience times : Nat) (e : Expression) : Roller σ (List Roll) :=
  (List.replicate times e).mapM (roll patience)

end Expression

end Rolling

end TabletopDice
