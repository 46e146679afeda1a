/-
  TabletopDice.Scan
  ──────────────────────────────────────
  **THE SCAN: a text taken apart by four slots that come round in turn.**

  Spaces, a term, spaces, an operator, and from the start again.  Each slot
  has a pattern and takes its piece off the text; the scan ends when the text
  is used up — no slot is entered then — or when a slot finds nothing.  It
  never goes back over what it has read.

    • `Slot.weight_lt` — a step shortens the text or leaves a slot that may
      read nothing for one that may not, so the scan ends,
    • `run_of_some` — one round of the scan as an equation,
    • `run_induct` — the induction along a scan, round by round,
    • `text_append_rest` — the pieces and the rest are the whole source.
-/
import TabletopDice.Pattern.Basic

namespace TabletopDice

/-! ## §1. Slots. -/

/-- The slots of the scan. -/
inductive Slot
  | leadingSpace
  | term
  | trailingSpace
  | operator
deriving DecidableEq

namespace Slot

/-- The slot after a slot. -/
def next : Slot → Slot
  | .leadingSpace => .term
  | .term => .trailingSpace
  | .trailingSpace => .operator
  | .operator => .leadingSpace

/-- What a slot looks for.  A group of dice is tried before a constant, since
both may start with a number. -/
def pattern : Slot → Pattern
  | .leadingSpace => .leaf .space
  | .term => .either (.leaf .dice) (.leaf .constant)
  | .trailingSpace => .leaf .space
  | .operator => .leaf .operator

/-- How far a scan is from its end: twice the length of the text, and one more
in a slot that may read nothing. -/
def weight (s : Slot) (source : List Char) : Nat :=
  2 * source.length + if s = .leadingSpace ∨ s = .trailingSpace then 1 else 0

/-- **Every step brings the scan nearer to its end.** -/
theorem weight_lt {s : Slot} {source : List Char} {m : Match}
    (h : s.pattern.read? source = some m) : s.next.weight m.rest < s.weight source := by
  have hlen : m.text.length + m.rest.length = source.length := by
    rw [← List.length_append, Pattern.read?_append h]
  cases s with
  | leadingSpace => simp [weight, next]; omega
  | trailingSpace => simp [weight, next]; omega
  | term =>
      have hne := List.length_pos_iff.2 (Pattern.text_ne_nil_of_read? h (by decide))
      simp [weight, next]
      omega
  | operator =>
      have hne := List.length_pos_iff.2 (Pattern.text_ne_nil_of_read? h (by decide))
      simp [weight, next]
      omega

end Slot

/-! ## §2. The scan. -/

/-- One step of a scan: a slot, what it read, and the token that stands for. -/
structure ScanStep where
  slot : Slot
  text : List Char
  token : Option Token
deriving DecidableEq

/-- A finished scan: its steps in order and what was left unread. -/
structure Scan where
  steps : List ScanStep
  rest : List Char
deriving DecidableEq

namespace Scan

/-- The scan from a slot on, after the steps made so far (latest first). -/
def resume (done : List ScanStep) (slot : Slot) (source : List Char) : Scan :=
  -- A used-up text ends the scan even in front of a slot that could read nothing.
  if source = [] then ⟨done.reverse, []⟩
  else
    match _read : slot.pattern.read? source with
    | none => ⟨done.reverse, source⟩
    | some m => resume (⟨slot, m.text, m.token⟩ :: done) slot.next m.rest
termination_by slot.weight source
decreasing_by exact Slot.weight_lt _read

/-- The scan of a text that begins in a given slot. -/
def run (slot : Slot) (source : List Char) : Scan := resume [] slot source

/-- The scan of a whole text. -/
def ofText (source : List Char) : Scan := run .leadingSpace source

/-- The tokens of a scan in order. -/
def tokens (s : Scan) : List Token := s.steps.filterMap ScanStep.token

/-! ## §3. The scan, round by round. -/

theorem resume_nil (done : List ScanStep) (slot : Slot) :
    resume done slot [] = ⟨done.reverse, []⟩ := by
  rw [resume, if_pos rfl]

theorem resume_of_none {slot : Slot} {source : List Char} (done : List ScanStep)
    (h : slot.pattern.read? source = none) : resume done slot source = ⟨done.reverse, source⟩ := by
  rw [resume]
  split
  · next hs => rw [hs]
  · split
    · rfl
    · next m hm =>
        rw [h] at hm
        cases hm

theorem resume_of_some {slot : Slot} {source : List Char} {m : Match} (done : List ScanStep)
    (hs : source ≠ []) (h : slot.pattern.read? source = some m) :
    resume done slot source = resume (⟨slot, m.text, m.token⟩ :: done) slot.next m.rest := by
  rw [resume, if_neg hs]
  split
  · next hm =>
      rw [h] at hm
      cases hm
  · next m' hm =>
      rw [h] at hm
      cases hm
      rfl

/-- The steps made before are kept in front, and play no other part. -/
theorem resume_eq (done : List ScanStep) (slot : Slot) (source : List Char) :
    resume done slot source
      = ⟨done.reverse ++ (run slot source).steps, (run slot source).rest⟩ := by
  unfold run
  generalize hw : slot.weight source = w
  -- On the weight, for all steps made before: each step makes it smaller.
  induction w using Nat.strongRecOn generalizing done slot source with
  | ind w ih =>
      by_cases hs : source = []
      · subst hs
        simp [resume_nil]
      · cases h : slot.pattern.read? source with
        | none => simp [resume_of_none _ h]
        | some m =>
            have hlt := hw ▸ Slot.weight_lt h
            rw [resume_of_some done hs h, resume_of_some [] hs h,
              ih _ hlt (⟨slot, m.text, m.token⟩ :: done) _ _ rfl,
              ih _ hlt [⟨slot, m.text, m.token⟩] _ _ rfl]
            simp

theorem run_nil (slot : Slot) : run slot [] = ⟨[], []⟩ := resume_nil [] slot

theorem run_of_none {slot : Slot} {source : List Char}
    (h : slot.pattern.read? source = none) : run slot source = ⟨[], source⟩ :=
  resume_of_none [] h

/-- **One round**: what the slot reads is the first step, and the next slot
goes on with the rest. -/
theorem run_of_some {slot : Slot} {source : List Char} {m : Match}
    (hs : source ≠ []) (h : slot.pattern.read? source = some m) :
    run slot source
      = ⟨⟨slot, m.text, m.token⟩ :: (run slot.next m.rest).steps,
          (run slot.next m.rest).rest⟩ := by
  -- The first step is made before the others, so it stands in front of them.
  rw [run, resume_of_some [] hs h, resume_eq]
  rfl

theorem rest_run_of_some {slot : Slot} {source : List Char} {m : Match}
    (hs : source ≠ []) (h : slot.pattern.read? source = some m) :
    (run slot source).rest = (run slot.next m.rest).rest := by
  rw [run_of_some hs h]

theorem tokens_run_of_some {slot : Slot} {source : List Char} {m : Match}
    (hs : source ≠ []) (h : slot.pattern.read? source = some m) :
    (run slot source).tokens = m.token.toList ++ (run slot.next m.rest).tokens := by
  rw [run_of_some hs h]
  obtain ⟨text, token, rest⟩ := m
  cases token with
  | none => rfl
  | some t => rfl

/-! ## §4. Induction along a scan. -/

/-- **A scan ends in one of two ways or goes one round further.**  What holds
of a used-up text and of a slot that finds nothing, and passes from the rest
back over a round, holds of every scan. -/
theorem run_induct {motive : Slot → List Char → Prop}
    (usedUp : ∀ slot, motive slot [])
    (stuck : ∀ slot source, source ≠ [] → slot.pattern.read? source = none →
      motive slot source)
    (round : ∀ slot source m, source ≠ [] → slot.pattern.read? source = some m →
      motive slot.next m.rest → motive slot source)
    (slot : Slot) (source : List Char) : motive slot source := by
  generalize hw : slot.weight source = w
  -- The slots come round again, so only the weight gets smaller with every step.
  induction w using Nat.strongRecOn generalizing slot source with
  | ind w ih =>
      by_cases hs : source = []
      · subst hs
        exact usedUp slot
      · cases h : slot.pattern.read? source with
        | none => exact stuck slot source hs h
        | some m => exact round slot source m hs h (ih _ (hw ▸ Slot.weight_lt h) _ _ rfl)

/-- **The scan loses nothing**: the pieces in order, and then the rest, are the
source. -/
theorem text_append_rest (slot : Slot) (source : List Char) :
    (run slot source).steps.flatMap ScanStep.text ++ (run slot source).rest = source := by
  induction slot, source using run_induct with
  | usedUp slot => simp [run_nil]
  | stuck slot source hs h => simp [run_of_none h]
  | round slot source m hs h ih =>
      rw [run_of_some hs h, List.flatMap_cons, List.append_assoc, ih]
      exact Pattern.read?_append h

end Scan

end TabletopDice
