/-
  TabletopDice.Proofs.Scan.Trace
  ──────────────────────────────────────
  **WHAT READING A TEXT CONSUMED, STEP BY STEP: nothing is lost, nothing is
  read twice, and the steps are few.**

  The journal of a text keeps the slot and the piece of every step.  What may
  stand in one entry is said once (`ScanStep.Sound`) and holds of every step
  of a scan; the rest follows from the order of the steps:

    • `Scan.slot_of_getElem?`, `Slot.cycle_getElem?` — the four slots in turn,
    • `Scan.length_steps_le` — as many steps as the weight of the start,
    • `Scan.forall₂_termTexts` — a term of the expression for each term piece,
    • `Expression.traced_parse` — the whole trace against the outcome.
-/
import Mathlib.Data.List.Forall2
import TabletopDice.Journal
import TabletopDice.Proofs.Grammar.RoundTrip

namespace TabletopDice

open Grammar

/-! ## §1. One step. -/

namespace ScanStep

/-- **What a step may have read**: spaces without a token, a term of the
grammar, or the sign of an operator. -/
def Sound (step : ScanStep) : Prop :=
  match step.slot with
  | .leadingSpace => Spaces step.text ∧ step.token = none
  | .term => ∃ t, TermText step.text t ∧ step.token = some (.term t)
  | .trailingSpace => Spaces step.text ∧ step.token = none
  | .operator => ∃ op, step.text = [operatorSign op] ∧ step.token = some (.operator op)

/-- What a slot finds is what it is for. -/
theorem sound_of_read? {slot : Slot} {source : List Char} {m : Match}
    (h : slot.pattern.read? source = some m) : Sound ⟨slot, m.text, m.token⟩ := by
  cases slot with
  | leadingSpace => exact spaces_of_space? h
  | term => exact termText_of_read? h
  | trailingSpace => exact spaces_of_space? h
  | operator =>
      obtain ⟨op, rest, -, rfl⟩ := Reader.operator?_eq_some_iff.1 h
      exact ⟨op, rfl, rfl⟩

end ScanStep

namespace Scan

/-- **Every step of a scan is sound.** -/
theorem sound_of_mem (slot : Slot) (source : List Char) :
    ∀ step ∈ (run slot source).steps, step.Sound := by
  induction slot, source using run_induct with
  | usedUp slot => simp [run_nil]
  | stuck slot source hs h => simp [run_of_none h]
  | round slot source m hs h ih =>
      rw [run_of_some hs h]
      exact List.forall_mem_cons.2 ⟨ScanStep.sound_of_read? h, ih⟩

end Scan

/-! ## §2. The slots in turn. -/

namespace Slot

/-- The four slots, in the order in which they come round. -/
def cycle : List Slot := [.leadingSpace, .term, .trailingSpace, .operator]

theorem after_add_four (slot : Slot) (steps : Nat) : slot.after (steps + 4) = slot.after steps := by
  have hround : slot.next.next.next.next = slot := by
    cases slot <;> rfl
  show slot.next.next.next.next.after steps = _
  rw [hround]

/-- **After every four steps the slots begin again.** -/
theorem cycle_getElem? (steps : Nat) :
    cycle[steps % 4]? = some (Slot.leadingSpace.after steps) := by
  induction steps using Nat.strongRecOn with
  | ind steps ih =>
      -- The first four are looked up, and every later one is that of four steps before.
      by_cases h : steps < 4
      · have hfirst : ∀ n : Fin 4, cycle[n.val]? = some (Slot.leadingSpace.after n.val) := by
          decide
        rw [Nat.mod_eq_of_lt h]
        exact hfirst ⟨steps, h⟩
      · obtain ⟨before, rfl⟩ : ∃ before, steps = before + 4 := ⟨steps - 4, by omega⟩
        rw [after_add_four, Nat.add_mod_right]
        exact ih before (by omega)

end Slot

namespace Scan

/-- **The slot of each step is told by its number.** -/
theorem slot_of_getElem? (slot : Slot) (source : List Char) :
    ∀ i step, (run slot source).steps[i]? = some step → step.slot = slot.after i := by
  induction slot, source using run_induct with
  | usedUp slot => simp [run_nil]
  | stuck slot source hs h => simp [run_of_none h]
  | round slot source m hs h ih =>
      rw [run_of_some hs h]
      intro i step hi
      -- The first step was made in the slot itself, the others in those after it.
      cases i with
      | zero =>
          rw [List.getElem?_cons_zero, Option.some.injEq] at hi
          rw [← hi]
          rfl
      | succ i => exact ih i step hi

/-- **No more steps than the weight of the start**: each of them lowers it. -/
theorem length_steps_le (slot : Slot) (source : List Char) :
    (run slot source).steps.length ≤ slot.weight source := by
  induction slot, source using run_induct with
  | usedUp slot => simp [run_nil]
  | stuck slot source hs h => simp [run_of_none h]
  | round slot source m hs h ih =>
      have hlt := Slot.weight_lt h
      rw [run_of_some hs h, List.length_cons]
      omega

end Scan

/-! ## §3. The pieces of the term slot. -/

/-- The texts that the term slot read, in order. -/
def termTexts (entries : List (Slot × List Char)) : List (List Char) :=
  entries.filterMap fun entry => if entry.1 = .term then some entry.2 else none

/-- A step as an entry of the trace. -/
def ScanStep.entry (step : ScanStep) : Slot × List Char := (step.slot, step.text)

/-- **Without its sign a term is what its text spells**, whatever operator
stands in front of it. -/
theorem Grammar.TermText.unsigned_apply {text : List Char} {t : Term} (h : TermText text t)
    (op : Operator) : (op.apply t).unsigned = t := by
  have hlimits := h.wellFormed.1
  cases h with
  | @constant text n h =>
      have hvalue : (Constant.ofUInt32 (UInt32.ofNat n)).value.toInt = n := by
        rw [Constant.toInt_ofUInt32, Reader.toNat_ofNat_of_le h.within]
      -- Only the distance from zero is written, and a sign does not change that.
      have hdistance : ∀ c : Constant, c.value.toInt.natAbs = n →
          (Term.constant c).unsigned = .constant (.ofUInt32 (UInt32.ofNat n)) := by
        intro c hc
        show Term.constant (.ofUInt32 (UInt32.ofNat c.value.toInt.natAbs)) = _
        rw [hc]
      cases op with
      | add => exact hdistance _ (by omega)
      | sub =>
          refine hdistance (Constant.ofUInt32 (UInt32.ofNat n)).negate ?_
          rw [Constant.toInt_negate_of_withinLimits hlimits]
          omega
  | dice _ _ _ => cases op <;> rfl

/-- **The text of a term, parsed on its own, is that term.** -/
theorem Grammar.TermText.parse_ofList {text : List Char} {t : Term} (h : TermText text t) :
    Expression.parse (String.ofList text) = .ok ⟨[t]⟩ := by
  -- The grammar has no rule for a term alone: no spaces around it, and no tail.
  have hspells : Spells ([] ++ (text ++ [])) ⟨[t]⟩ := .intro spaces_nil h (.done spaces_nil)
  rw [List.nil_append, List.append_nil] at hspells
  unfold Expression.parse
  rw [String.toList_ofList]
  exact Expression.ofChars_of_spells hspells

/-- The text stands for the term: parsed on its own it is the term without its
sign. -/
def StandsFor (text : List Char) (t : Term) : Prop :=
  Expression.parse (String.ofList text) = .ok ⟨[t.unsigned]⟩

/-- **Each piece of the term slot stands for one term**, in order: the other
steps leave no term, and an operator only changes the sign. -/
theorem Scan.forall₂_termTexts {steps : List ScanStep} (h : ∀ step ∈ steps, step.Sound) :
    ∀ op, List.Forall₂ StandsFor (termTexts (steps.map ScanStep.entry))
      (Token.signedTerms op (steps.filterMap ScanStep.token)) := by
  -- Along the steps, for every operator that may have been read before them.
  induction steps with
  | nil =>
      intro op
      exact .nil
  | cons step steps ih =>
      obtain ⟨slot, text, token⟩ := step
      intro op
      have hstep : ScanStep.Sound ⟨slot, text, token⟩ := h _ List.mem_cons_self
      have hmore := ih fun s hs => h s (List.mem_cons_of_mem _ hs)
      cases slot with
      | leadingSpace =>
          obtain ⟨-, rfl⟩ : Spaces text ∧ token = none := hstep
          exact hmore op
      | term =>
          obtain ⟨t, htext, rfl⟩ : ∃ t, TermText text t ∧ token = some (.term t) := hstep
          have hstands : StandsFor text (op.apply t) := by
            unfold StandsFor
            rw [htext.unsigned_apply]
            exact htext.parse_ofList
          exact .cons hstands (hmore op)
      | trailingSpace =>
          obtain ⟨-, rfl⟩ : Spaces text ∧ token = none := hstep
          exact hmore op
      | operator =>
          obtain ⟨op', -, rfl⟩ : ∃ op', text = [operatorSign op'] ∧
            token = some (.operator op') := hstep
          exact hmore op'

/-! ## §4. The trace of a text. -/

/-- The slot and the piece of an entry that tells what was consumed. -/
def Event.consumed? : Event → Option (Slot × List Char)
  | .consumed slot text => some (slot, text)
  | _ => none

namespace Expression

/-- **What reading a text consumed**: these entries of its journal, in order. -/
def consumed (source : String) : List (Slot × List Char) :=
  (parseJournal source.toList).filterMap Event.consumed?

/-- Every step of the scan is an entry, and the outcome is none of them. -/
theorem consumed_eq (source : String) :
    consumed source = (Scan.ofText source.toList).steps.map ScanStep.entry := by
  obtain ⟨outcome, houtcome, hjournal⟩ : ∃ outcome, Event.consumed? outcome = none ∧
      parseJournal source.toList = (Scan.ofText source.toList).steps.map
        (fun step => Event.consumed step.slot step.text) ++ [outcome] := by
    -- Accepted or rejected, the last event of the journal tells the outcome.
    refine ⟨_, ?_, rfl⟩
    split <;> rfl
  have hentries : (Event.consumed? ∘ fun step : ScanStep => .consumed step.slot step.text)
      = some ∘ ScanStep.entry := rfl
  unfold consumed
  rw [hjournal, List.filterMap_append, List.filterMap_map, hentries, List.filterMap_eq_map]
  simp [houtcome]

/-- **The trace tells the text and the outcome**: the slots come round in turn;
spaces are spaces, and terms and operators are not empty; there are at most
twice as many steps as characters and one more, and no more characters than
bytes; together the pieces are the text up to where reading stopped; and of an
accepted text there is one term piece for each term, which it stands for. -/
structure Traced (source : String) (outcome : Except ParseError Expression)
    (entries : List (Slot × List Char)) : Prop where
  slots : ∀ i entry, entries[i]? = some entry → Slot.cycle[i % 4]? = some entry.1
  spaces : ∀ entry ∈ entries, entry.1 = .leadingSpace ∨ entry.1 = .trailingSpace →
    Spaces entry.2
  nonempty : ∀ entry ∈ entries, entry.1 = .term ∨ entry.1 = .operator → entry.2 ≠ []
  few : entries.length ≤ 2 * source.length + 1
  read : match outcome with
    | .error (.unreadable position _) =>
        Utf8.size (entries.flatMap Prod.snd) = position ∧
          entries.flatMap Prod.snd ++ Utf8.drop position source.toList = source.toList
    | _ => entries.flatMap Prod.snd = source.toList
  terms : ∀ e, outcome = .ok e → List.Forall₂ StandsFor (termTexts entries) e.terms

/-- Each entry comes from a sound step. -/
theorem exists_step_of_mem_consumed {source : String} {entry : Slot × List Char}
    (h : entry ∈ consumed source) : ∃ step : ScanStep, step.Sound ∧ step.entry = entry := by
  rw [consumed_eq] at h
  obtain ⟨step, hstep, rfl⟩ := List.mem_map.1 h
  exact ⟨step, Scan.sound_of_mem _ _ step hstep, rfl⟩

/-- The entries go through the slots in turn. -/
theorem cycle_of_consumed {source : String} {i : Nat} {entry : Slot × List Char}
    (h : (consumed source)[i]? = some entry) : Slot.cycle[i % 4]? = some entry.1 := by
  rw [consumed_eq, List.getElem?_map] at h
  obtain ⟨step, hstep, rfl⟩ := Option.map_eq_some_iff.1 h
  rw [Slot.cycle_getElem?]
  exact congrArg some (Scan.slot_of_getElem? _ _ i step hstep).symm

/-- About twice as many steps as characters: the first slot weighs one more. -/
theorem length_consumed_le (source : String) :
    (consumed source).length ≤ 2 * source.length + 1 := by
  have hle := Scan.length_steps_le .leadingSpace source.toList
  rw [Slot.weight, if_pos (.inl rfl), String.length_toList] at hle
  rw [consumed_eq, List.length_map]
  exact hle

/-- **The pieces are the text up to where reading stopped.** -/
theorem flatMap_consumed_append (source : String) :
    (consumed source).flatMap Prod.snd ++ (Scan.ofText source.toList).rest = source.toList := by
  rw [consumed_eq, List.flatMap_map]
  exact Scan.text_append_rest .leadingSpace source.toList

/-- What was consumed ends at the byte offset that an error shows. -/
theorem size_consumed_eq (source : String) :
    Utf8.size ((consumed source).flatMap Prod.snd)
      = Utf8.size source.toList - Utf8.size (Scan.ofText source.toList).rest := by
  have hsize := congrArg Utf8.size (flatMap_consumed_append source)
  rw [Utf8.size_append] at hsize
  omega

/-- Behind what was consumed stands what the scan has left. -/
theorem drop_size_consumed (source : String) :
    Utf8.drop (Utf8.size ((consumed source).flatMap Prod.snd)) source.toList
      = (Scan.ofText source.toList).rest := by
  conv_lhs => rw [← flatMap_consumed_append source]
  exact Utf8.drop_size_append _ _

/-- **READING LOSES AND REPEATS NOTHING, AND ITS STEPS ARE BOUNDED**, whatever
the text and whatever comes of it. -/
theorem traced_parse (source : String) :
    Traced source (parse source) (consumed source) where
  slots := fun i entry h => cycle_of_consumed h
  spaces := by
    intro entry h hslot
    obtain ⟨⟨slot, text, token⟩, hstep, rfl⟩ := exists_step_of_mem_consumed h
    obtain rfl | rfl : slot = .leadingSpace ∨ slot = .trailingSpace := hslot
    · exact hstep.1
    · exact hstep.1
  nonempty := by
    intro entry h hslot
    obtain ⟨⟨slot, text, token⟩, hstep, rfl⟩ := exists_step_of_mem_consumed h
    obtain rfl | rfl : slot = .term ∨ slot = .operator := hslot
    · obtain ⟨t, htext, -⟩ : ∃ t, TermText text t ∧ token = some (.term t) := hstep
      exact List.length_pos_iff.1 htext.one_le_length
    · obtain ⟨op, htext, -⟩ : ∃ op, text = [operatorSign op] ∧
        token = some (.operator op) := hstep
      show text ≠ []
      simp [htext]
  few := length_consumed_le source
  read := by
    have htext := flatMap_consumed_append source
    by_cases hrest : (Scan.ofText source.toList).rest = []
    · -- The text is used up, so no error has a position.
      have hparse : parse source = ofTokens (Scan.ofText source.toList).tokens :=
        ofChars_of_used hrest
      rw [hrest, List.append_nil] at htext
      rw [hparse]
      unfold ofTokens
      cases (Scan.ofText source.toList).tokens.getLast? with
      | none => exact htext
      | some token => cases token <;> exact htext
    -- The scan got stuck, and the error counts the bytes consumed.
    · have hparse : parse source
          = .error (.unreadableAt source.toList (Scan.ofText source.toList).rest) :=
        ofChars_of_stuck hrest
      rw [hparse]
      refine ⟨size_consumed_eq source, ?_⟩
      rw [← size_consumed_eq, drop_size_consumed]
      exact htext
  terms := by
    intro e he
    obtain ⟨-, -, rfl⟩ := ofChars_eq_ok_iff.1 he
    rw [consumed_eq]
    exact Scan.forall₂_termTexts (Scan.sound_of_mem _ _) .add

example :
    consumed " 2d6+3 x"
      = [(.leadingSpace, [' ']), (.term, "2d6".toList), (.trailingSpace, []),
          (.operator, ['+']), (.leadingSpace, []), (.term, ['3']), (.trailingSpace, [' '])] := by
  cbv

end Expression

end TabletopDice
