/-
  TabletopDice.Expression.Basic
  ──────────────────────────────────────
  **AN EXPRESSION IS A LIST OF SIGNED TERMS.**

  Its bounds add the bounds of the terms from the left, held at the ends of
  the 64-bit range after each step.  `WellFormed` names the expressions that
  have a notation: at least one term, the first one not negative, and every
  term within the limits.
-/
import TabletopDice.Term.Bounds

namespace TabletopDice

/-- A sum of dice and constants, in the order they were written. -/
structure Expression where
  terms : List Term
deriving DecidableEq

namespace Expression

/-- The number of terms. -/
def length (e : Expression) : Nat := e.terms.length

/-- Whether there is no term at all. -/
def isEmpty (e : Expression) : Bool := e.terms.isEmpty

/-- The lowest total of an expression. -/
def min (e : Expression) : Int64 := Saturating.sum (e.terms.map Term.min)

/-- The highest total of an expression. -/
def max (e : Expression) : Int64 := Saturating.sum (e.terms.map Term.max)

/-- The expressions that have a notation. -/
def WellFormed (e : Expression) : Prop :=
  e.terms ≠ [] ∧ (∀ t ∈ e.terms.head?, t.isNegative = false) ∧
    ∀ t ∈ e.terms, t.WithinLimits

instance (e : Expression) : Decidable e.WellFormed :=
  inferInstanceAs (Decidable (e.terms ≠ [] ∧
    (∀ t ∈ e.terms.head?, t.isNegative = false) ∧ ∀ t ∈ e.terms, t.WithinLimits))

end Expression

end TabletopDice
