/-
  TabletopDice.Pattern.Basic
  ──────────────────────────────────────
  **PATTERNS: readers joined by ordered choice.**

  `either first second` tries `first` and turns to `second`, on the same text,
  only when `first` finds nothing.  A run records the leaves it tried, in
  order, beside what it found, so that the order of the tries can be stated as
  well as the result.
-/
import TabletopDice.Pattern.Reader

namespace TabletopDice

/-! ## §1. Leaves. -/

/-- The readers that a pattern is built from. -/
inductive Leaf
  | dice
  | constant
  | space
  | operator
deriving DecidableEq

namespace Leaf

/-- Read with the reader that a leaf names. -/
def read? : Leaf → List Char → Option Match
  | .dice => Reader.dice?
  | .constant => Reader.constant?
  | .space => Reader.space?
  | .operator => Reader.operator?

theorem read?_append {l : Leaf} {source : List Char} {m : Match}
    (h : l.read? source = some m) : m.text ++ m.rest = source := by
  cases l with
  | dice => exact Reader.dice?_append h
  | constant => exact Reader.constant?_append h
  | space => exact Reader.space?_append h
  | operator => exact Reader.operator?_append h

/-- **Only spaces may read nothing.** -/
theorem text_ne_nil_of_read? {l : Leaf} {source : List Char} {m : Match}
    (h : l.read? source = some m) (hl : l ≠ .space) : m.text ≠ [] := by
  cases l with
  | dice => exact Reader.dice?_text_ne_nil h
  | constant => exact Reader.constant?_text_ne_nil h
  | space => exact absurd rfl hl
  | operator => exact Reader.operator?_text_ne_nil h

end Leaf

/-! ## §2. Patterns and their runs. -/

/-- A choice between readers, nested at will. -/
inductive Pattern
  | leaf (l : Leaf)
  | either (first second : Pattern)
deriving DecidableEq

/-- A run of a pattern: the leaves tried, in order, and what was found. -/
structure Trial where
  tried : List Leaf
  found : Option Match
deriving DecidableEq

namespace Pattern

/-- The leaves of a pattern from left to right. -/
def leaves : Pattern → List Leaf
  | .leaf l => [l]
  | .either first second => first.leaves ++ second.leaves

/-- Run a pattern.  The second half of a choice is left alone once the first
has found something. -/
def run : Pattern → List Char → Trial
  | .leaf l, source => ⟨[l], l.read? source⟩
  | .either first second, source =>
      let trial := first.run source
      match trial.found with
      | some _ => trial
      | none =>
          let next := second.run source
          ⟨trial.tried ++ next.tried, next.found⟩

/-- What a pattern finds in front of a text. -/
def read? (p : Pattern) (source : List Char) : Option Match := (p.run source).found

/-- **Choice is ordered.** -/
theorem read?_either (first second : Pattern) (source : List Char) :
    (either first second).read? source = (first.read? source).or (second.read? source) := by
  simp only [read?, run]
  cases h : (first.run source).found with
  | none => rfl
  | some m => exact h

/-- What a pattern finds was found by one of its leaves. -/
theorem exists_leaf_of_read? {p : Pattern} {source : List Char} {m : Match}
    (h : p.read? source = some m) : ∃ l ∈ p.leaves, l.read? source = some m := by
  induction p with
  | leaf l => exact ⟨l, List.mem_singleton_self l, h⟩
  | either first second ihf ihs =>
      rw [read?_either, Option.or_eq_some_iff] at h
      rcases h with h | ⟨-, h⟩
      · obtain ⟨l, hl, hm⟩ := ihf h
        exact ⟨l, List.mem_append_left _ hl, hm⟩
      · obtain ⟨l, hl, hm⟩ := ihs h
        exact ⟨l, List.mem_append_right _ hl, hm⟩

theorem read?_append {p : Pattern} {source : List Char} {m : Match}
    (h : p.read? source = some m) : m.text ++ m.rest = source := by
  obtain ⟨l, -, hm⟩ := exists_leaf_of_read? h
  exact Leaf.read?_append hm

theorem text_ne_nil_of_read? {p : Pattern} {source : List Char} {m : Match}
    (h : p.read? source = some m) (hp : Leaf.space ∉ p.leaves) : m.text ≠ [] := by
  obtain ⟨l, hl, hm⟩ := exists_leaf_of_read? h
  exact Leaf.text_ne_nil_of_read? hm fun hspace => hp (hspace ▸ hl)

end Pattern

end TabletopDice
