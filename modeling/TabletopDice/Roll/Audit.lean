/-
  TabletopDice.Roll.Audit
  ──────────────────────────────────────
  **CHECKING A ROLL: do its numbers add up, and do they keep to the bounds?**
-/
import TabletopDice.Roll.Basic

namespace TabletopDice

/-- A value between two bounds, both included. -/
def Between (low high value : Int64) : Prop := low ≤ value ∧ value ≤ high

instance (low high value : Int64) : Decidable (Between low high value) :=
  inferInstanceAs (Decidable (low ≤ value ∧ value ≤ high))

namespace Part

/-- The total of a part is the sum of its faces. -/
def AddsUp (p : Part) : Prop := p.total = Wrapping.sum p.faces

instance (p : Part) : Decidable p.AddsUp :=
  inferInstanceAs (Decidable (p.total = Wrapping.sum p.faces))

/-- The total of a part keeps to the bounds of its term. -/
def WithinBounds (p : Part) : Prop := Between p.term.min p.term.max p.total

instance (p : Part) : Decidable p.WithinBounds :=
  inferInstanceAs (Decidable (Between p.term.min p.term.max p.total))

end Part

namespace Roll

/-- The total of a roll is the sum of its subtotals. -/
def AddsUp (r : Roll) : Prop := r.total = Wrapping.sum r.subtotals

instance (r : Roll) : Decidable r.AddsUp :=
  inferInstanceAs (Decidable (r.total = Wrapping.sum r.subtotals))

/-- The total of a roll keeps to the bounds of an expression. -/
def WithinBounds (r : Roll) (e : Expression) : Prop := Between e.min e.max r.total

instance (r : Roll) (e : Expression) : Decidable (r.WithinBounds e) :=
  inferInstanceAs (Decidable (Between e.min e.max r.total))

end Roll

end TabletopDice
