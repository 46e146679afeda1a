/-
  TabletopDice.Proofs.Grammar.Spacing
  ──────────────────────────────────────
  **SPACES MATTER EXACTLY INSIDE TERMS.**

  A place in a text is a gap when a character of a term stands on one side of
  it at most.  In a gap of a notation spaces may be put in and taken out, and
  the meaning stays.  Where characters of a term stand on both sides, spaces
  between them are refused: what stands in front of them is no longer read as
  a part of the term, and behind a term and spaces only an operator may come.

    • `Tail.insert`, `Spells.insert` — spaces put into a gap, along the grammar,
    • `Spells.withoutSpaces` — all spaces taken out,
    • `Scan.rest_ne_nil_of_parted` — no scan uses up a text in which spaces
      part a term, along the scan,
    • `Expression.spacing` — the three together, at every byte offset.
-/
import TabletopDice.Proofs.Scan.Stop

namespace TabletopDice

open Grammar

/-! ## §1. Gaps. -/

/-- No space stands in a term. -/
theorem Reader.ne_space_of_inTerm {c : Char} (h : inTerm c = true) : c ≠ ' ' := by
  rintro rfl
  exact absurd h (by decide)

namespace Grammar

/-- **A gap**: at one side of the place, at least, no character of a term
stands. -/
def Gap (front back : List Char) : Prop :=
  (∀ c ∈ front.getLast?, Reader.inTerm c = false) ∨ Clear Reader.inTerm back

/-- What stands farther in front has no say in it. -/
theorem Gap.of_append {first front back : List Char} (h : Gap (first ++ front) back) :
    Gap front back := by
  -- The neighbour of the place is the last character of `front`, if there is one.
  obtain hfront | hback := h
  · refine .inl fun c hc => hfront c ?_
    rw [List.getLast?_append, Option.mem_def.1 hc]
    rfl
  · exact .inr hback

/-- **Inside a term there is no gap**, only at its two ends. -/
theorem Gap.of_inTerm {front back rest : List Char} (h : Gap front (back ++ rest))
    (hterm : ∀ c ∈ front ++ back, Reader.inTerm c = true) : front = [] ∨ back = [] := by
  by_cases hfront : front = []
  · exact .inl hfront
  by_cases hback : back = []
  · exact .inr hback
  -- Both neighbours of the place are characters of the term.
  have hlast := hterm _ (List.mem_append_left back (List.getLast_mem hfront))
  have hhead := hterm _ (List.mem_append_right front (List.head_mem hback))
  -- Whichever side of the gap is said to be free, its neighbour contradicts it.
  obtain hgap | hgap := h
  · have hnot := hgap _ (List.getLast?_eq_some_getLast hfront)
    rw [hlast] at hnot
    cases hnot
  · have hmem : back.head hback ∈ (back ++ rest).head? := by
      rw [List.head?_append, List.head?_eq_some_head hback]
      rfl
    have hnot := hgap _ hmem
    rw [hhead] at hnot
    cases hnot

/-! ## §2. Spaces put into a gap. -/

theorem Spaces.append {front back : List Char} (h : Spaces front) (h' : Spaces back) :
    Spaces (front ++ back) := List.forall_mem_append.2 ⟨h, h'⟩

/-- A run of spaces may be made longer anywhere. -/
theorem Spaces.insert {front back spaces : List Char} (h : Spaces (front ++ back))
    (hspaces : Spaces spaces) : Spaces (front ++ (spaces ++ back)) := by
  obtain ⟨hfront, hback⟩ := List.forall_mem_append.1 h
  exact Spaces.append hfront (Spaces.append hspaces hback)

/-- A tail is spaces, a sign, and an expression whose first term takes the
sign. -/
theorem Tail.of_spells {before source : List Char} {t : Term} {ts : List Term}
    (hbefore : Spaces before) (op : Operator) (h : Spells source ⟨t :: ts⟩) :
    Tail (before ++ operatorSign op :: source) (op.apply t :: ts) := by
  cases h with
  | intro hspaces htext htail => exact .more hbefore hspaces htext htail

/-- Spaces may be added in front of a tail. -/
theorem Tail.prepend {rest spaces : List Char} {ts : List Term} (h : Tail rest ts)
    (hspaces : Spaces spaces) : Tail (spaces ++ rest) ts := by
  cases h with
  | done hrest => exact .done (hspaces.append hrest)
  | more hbefore hafter htext htail =>
      rw [← List.append_assoc]
      exact .more (hspaces.append hbefore) hafter htext htail

section Insert

variable {spaces back : List Char} (hspaces : Spaces spaces)
include hspaces

/-- **Spaces put into a gap in front of a term, or behind it** if that is
known of what follows. -/
theorem Spells.insert_of {lead text rest front : List Char} {t : Term} {ts : List Term}
    (hlead : Spaces lead) (htext : TermText text t) (htail : Tail rest ts)
    (hmore : ∀ {more}, rest = more ++ back → Gap more back → Tail (more ++ (spaces ++ back)) ts)
    (hsplit : lead ++ (text ++ rest) = front ++ back) (hgap : Gap front back) :
    Spells (front ++ (spaces ++ back)) ⟨t :: ts⟩ := by
  -- The place lies behind the leading spaces, or among them.
  obtain ⟨behind, rfl, hbehind⟩ | ⟨more, rfl, rfl⟩ := List.append_eq_append_iff.1 hsplit
  · -- It lies behind the term, or in it, and then it is one of its ends.
    obtain ⟨more, rfl, hrest⟩ | ⟨more, rfl, rfl⟩ := List.append_eq_append_iff.1 hbehind
    · have htail' := hmore hrest hgap.of_append.of_append
      simpa only [List.append_assoc] using Spells.intro hlead htext htail'
    -- At the front end the spaces join the leading ones, at the back end the tail.
    · obtain rfl | rfl := hgap.of_append.of_inTerm htext.inTerm
      · have hlead' := hlead.append hspaces
        simpa only [List.append_assoc, List.nil_append] using Spells.intro hlead' htext htail
      · rw [List.append_nil] at htext
        have htail' := htail.prepend hspaces
        simpa only [List.append_assoc, List.nil_append] using Spells.intro hlead htext htail'
  · have hlead' := hlead.insert hspaces
    simpa only [List.append_assoc] using Spells.intro hlead' htext htail

/-- **Spaces put into a gap of a tail.** -/
theorem Tail.insert {rest : List Char} {ts : List Term} (h : Tail rest ts) :
    ∀ {front}, rest = front ++ back → Gap front back → Tail (front ++ (spaces ++ back)) ts := by
  induction h with
  -- At the end of the notation only spaces are left to be made more.
  | done hrest =>
      intro front hsplit _
      rw [hsplit] at hrest
      exact .done (hrest.insert hspaces)
  | @more before after text rest op t ts hbefore hafter htext htail ih =>
      intro front hsplit hgap
      -- The place lies behind the spaces in front of the sign, or among them.
      obtain ⟨behind, rfl, hbehind⟩ | ⟨more, rfl, rfl⟩ := List.append_eq_append_iff.1 hsplit
      · cases behind with
        | nil =>
            -- Right in front of the sign.
            have hbefore' := hbefore.append hspaces
            have htail' : Tail _ (op.apply t :: ts) := .more hbefore' hafter htext htail
            rw [hbehind] at htail'
            simpa only [List.append_assoc, List.append_nil, List.nil_append] using htail'
        | cons sign behind =>
            -- Behind the sign, in what spells the next term and those after it.
            obtain ⟨rfl, hnext⟩ := List.cons.inj hbehind
            rw [List.append_cons] at hgap
            have hspells := Spells.insert_of hspaces hafter htext htail ih hnext hgap.of_append
            simpa only [List.append_assoc, List.cons_append] using
              Tail.of_spells hbefore op hspells
      · have hbefore' := hbefore.insert hspaces
        have htail' : Tail _ (op.apply t :: ts) := .more hbefore' hafter htext htail
        simpa only [List.append_assoc] using htail'

/-- **SPACES MAY BE PUT INTO EVERY GAP OF A NOTATION.** -/
theorem Spells.insert {front : List Char} {e : Expression} (h : Spells (front ++ back) e)
    (hgap : Gap front back) : Spells (front ++ (spaces ++ back)) e := by
  -- The split is kept apart, since the grammar cuts the text at other places.
  generalize hsplit : front ++ back = source at h
  cases h with
  | intro hlead htext htail =>
      exact .insert_of hspaces hlead htext htail (htail.insert hspaces) hsplit.symm hgap

/-- At the end of a notation there is a gap. -/
theorem Spells.append_spaces {source : List Char} {e : Expression} (h : Spells source e) :
    Spells (source ++ spaces) e := by
  rw [← List.append_nil source] at h
  have hmore := h.insert hspaces (.inr (Clear.nil _))
  rw [List.append_nil] at hmore
  exact hmore

end Insert

/-! ## §3. All spaces taken out. -/

/-- A text without its spaces. -/
def withoutSpaces (text : List Char) : List Char := text.filter (· ≠ ' ')

@[simp] theorem withoutSpaces_append (front back : List Char) :
    withoutSpaces (front ++ back) = withoutSpaces front ++ withoutSpaces back :=
  List.filter_append front back

@[simp] theorem withoutSpaces_operatorSign (op : Operator) (text : List Char) :
    withoutSpaces (operatorSign op :: text) = operatorSign op :: withoutSpaces text := by
  cases op <;> rfl

theorem Spaces.withoutSpaces {text : List Char} (h : Spaces text) : withoutSpaces text = [] := by
  unfold Grammar.withoutSpaces
  rw [List.filter_eq_nil_iff]
  intro c hc
  simp [h c hc]

/-- A term holds no space, so it loses none. -/
theorem TermText.withoutSpaces {text : List Char} {t : Term} (h : TermText text t) :
    withoutSpaces text = text := by
  unfold Grammar.withoutSpaces
  rw [List.filter_eq_self]
  intro c hc
  exact decide_eq_true (Reader.ne_space_of_inTerm (h.inTerm c hc))

/-- Without its spaces a tail spells the same terms: each sign stands right behind
one term and right in front of the next. -/
theorem Tail.withoutSpaces {rest : List Char} {ts : List Term} (h : Tail rest ts) :
    Tail (withoutSpaces rest) ts := by
  induction h with
  | done hrest =>
      rw [hrest.withoutSpaces]
      exact .done spaces_nil
  | @more before after text rest op t ts hbefore hafter htext _ ih =>
      have hmore : Tail _ (op.apply t :: ts) := .more spaces_nil spaces_nil htext ih
      simpa [hbefore.withoutSpaces, hafter.withoutSpaces, htext.withoutSpaces] using hmore

/-- **WITHOUT ITS SPACES A NOTATION MEANS THE SAME.** -/
theorem Spells.withoutSpaces {source : List Char} {e : Expression} (h : Spells source e) :
    Spells (withoutSpaces source) e := by
  cases h with
  | intro hlead htext htail =>
      have hspells := Spells.intro spaces_nil htext htail.withoutSpaces
      simpa [hlead.withoutSpaces, htext.withoutSpaces] using hspells

end Grammar

/-! ## §4. Spaces that part a term. -/

namespace Scan

/-- **Behind a term and spaces no character of a term is read**: an operator is
looked for. -/
theorem rest_run_inTerm {spaces : List Char} (hspaces : Spaces spaces) {c : Char}
    (hc : Reader.inTerm c = true) (back : List Char) :
    (run .trailingSpace (spaces ++ c :: back)).rest = c :: back := by
  have hclear : Clear (· = ' ') (c :: back) :=
    Clear.cons_iff.2 (decide_eq_false (Reader.ne_space_of_inTerm hc))
  have hread := Slot.trailingSpace.read?_spaces rfl hspaces hclear
  -- The only reader in the operator slot wants a sign, and `c` is none.
  have hoperator : Slot.operator.pattern.read? (c :: back) = none := by
    rw [Option.eq_none_iff_forall_ne_some]
    intro m hm
    obtain ⟨op, rest, hsource, -⟩ := Reader.operator?_eq_some_iff.1 hm
    rw [(List.cons.inj hsource).1] at hc
    exact absurd hc (by cases op <;> decide)
  have hne : spaces ++ c :: back ≠ [] :=
    List.append_ne_nil_of_right_ne_nil _ (List.cons_ne_nil _ _)
  -- So the scan takes the spaces and stops in front of `c`.
  rw [rest_run_of_some hne hread]
  show (run .operator (c :: back)).rest = _
  rw [run_of_none hoperator]

end Scan

/-- **A piece with a character of a term in it is a term.** -/
theorem ScanStep.Sound.inTerm_of_mem {slot : Slot} {text : List Char} {token : Option Token}
    (h : ScanStep.Sound ⟨slot, text, token⟩) {c : Char} (hmem : c ∈ text)
    (hc : Reader.inTerm c = true) : slot = .term ∧ ∀ d ∈ text, Reader.inTerm d = true := by
  have hspaces : ¬Spaces text := fun hs => Reader.ne_space_of_inTerm hc (hs c hmem)
  -- What a slot reads is known: only the term slot reads a character of a term.
  cases slot with
  | leadingSpace => exact absurd h.1 hspaces
  | term =>
      obtain ⟨t, htext, -⟩ := h
      exact ⟨rfl, htext.inTerm⟩
  | trailingSpace => exact absurd h.1 hspaces
  | operator =>
      obtain ⟨op, rfl, -⟩ : ∃ op, text = [operatorSign op] ∧ token = some (.operator op) := h
      rw [List.mem_singleton.1 hmem] at hc
      exact absurd hc (by cases op <;> decide)

namespace Scan

/-- **No scan uses up a text in which spaces part a term**: characters of a
term with nothing but spaces between them. -/
theorem rest_ne_nil_of_parted {c d : Char} (hc : Reader.inTerm c = true)
    (hd : Reader.inTerm d = true) {spaces : List Char} (hspaces : Spaces spaces)
    (hne : spaces ≠ []) (back : List Char) (slot : Slot) (source : List Char) :
    ∀ front, source = front ++ c :: (spaces ++ d :: back) → (run slot source).rest ≠ [] := by
  -- The parted term keeps its place behind every piece that ends in front of it,
  -- so the induction is over all that may stand in front.
  induction slot, source using run_induct with
  | usedUp slot =>
      intro front hsplit
      simp at hsplit
  | stuck slot source hs h =>
      intro front _
      rw [run_of_none h]
      exact hs
  | round slot source m hs h ih =>
      intro front hsplit
      rw [rest_run_of_some hs h]
      -- The piece just read ends in front of `c`, or it reaches it.
      rw [← Pattern.read?_append h] at hsplit
      obtain ⟨more, -, hrest⟩ | ⟨piece, htext, hrest⟩ := List.append_eq_append_iff.1 hsplit
      · exact ih more hrest
      · cases piece with
        | nil => exact ih [] hrest.symm
        | cons c' piece =>
            -- The piece reaches the first of the characters: it is a term, so it
            -- ends in front of the spaces, and behind them the scan gets stuck.
            obtain ⟨rfl, hmore⟩ := List.cons.inj hrest
            have hbehind : spaces ++ d :: back = piece ++ m.rest := hmore
            have hsound := ScanStep.sound_of_read? h
            have hmem : ∀ x ∈ c :: piece, x ∈ m.text := by
              intro x hx
              rw [htext]
              exact List.mem_append_right front hx
            obtain ⟨rfl, hinTerm⟩ := hsound.inTerm_of_mem (hmem c List.mem_cons_self) hc
            -- Behind `c` the piece would have to go on with a space, and a term has none.
            have hpiece : piece = [] := by
              cases piece with
              | nil => rfl
              | cons x piece =>
                  obtain ⟨y, spaces, rfl⟩ := List.exists_cons_of_ne_nil hne
                  have hxy : y = x := (List.cons.inj hbehind).1
                  have hx := Reader.ne_space_of_inTerm (hinTerm x (hmem x (by simp)))
                  rw [← hxy] at hx
                  exact absurd (hspaces y List.mem_cons_self) hx
            rw [hpiece, List.nil_append] at hbehind
            rw [← hbehind]
            show (run .trailingSpace (spaces ++ d :: back)).rest ≠ []
            rw [rest_run_inTerm hspaces hd]
            exact List.cons_ne_nil _ _

end Scan

/-- **Where there is no gap spaces are refused**, whatever the text. -/
theorem Expression.error_of_parted {front back spaces : List Char} (h : ¬Gap front back)
    (hspaces : Spaces spaces) (hne : spaces ≠ []) :
    ∃ position excerpt, ofChars (front ++ (spaces ++ back))
      = .error (.unreadable position excerpt) := by
  -- No gap: there is a character on either side, and both are of a term.
  unfold Gap Clear at h
  simp only [not_or, not_forall, Bool.not_eq_false] at h
  obtain ⟨⟨c, hlast, hc⟩, d, hhead, hd⟩ := h
  obtain ⟨front, rfl⟩ := List.getLast?_eq_some_iff.1 hlast
  obtain ⟨back, rfl⟩ := List.head?_eq_some_iff.1 hhead
  have hstuck := Scan.rest_ne_nil_of_parted hc hd hspaces hne back .leadingSpace _ front rfl
  rw [List.append_assoc, List.singleton_append]
  exact ⟨_, _, ofChars_of_stuck hstuck⟩

/-! ## §5. Spaces at every place of a notation. -/

namespace Grammar

/-- What may stand between two terms: spaces and signs. -/
def Separator (c : Char) : Prop := c = ' ' ∨ c = '+' ∨ c = '-'

instance (c : Char) : Decidable (Separator c) :=
  inferInstanceAs (Decidable (c = ' ' ∨ c = '+' ∨ c = '-'))

/-- Every other character of a notation stands in a term. -/
theorem separator_iff {c : Char} (h : writable c = true) :
    Separator c ↔ Reader.inTerm c = false := by
  constructor
  -- Character by character: a writable character is of a term, a space or a sign.
  · intro hc
    unfold Separator at hc
    obtain rfl | rfl | rfl := hc <;> decide
  · intro hc
    unfold writable at h
    unfold Reader.inTerm at hc
    simp only [Bool.or_eq_false_iff, beq_eq_false_iff_ne] at hc
    simp only [Bool.or_eq_true, List.contains_iff_mem, List.mem_cons, List.not_mem_nil] at h
    unfold Separator
    grind

/-- **The place between two parts of a text is free**: the character in front
of it is a space or a sign, or the one behind it is.  At an end of the text
there is no character on one side, and the place is free. -/
def Free (front back : String) : Prop :=
  (∀ c ∈ front.toList.getLast?, Separator c) ∨ ∀ c ∈ back.toList.head?, Separator c

instance (front back : String) : Decidable (Free front back) :=
  inferInstanceAs (Decidable ((∀ c ∈ front.toList.getLast?, Separator c) ∨
    ∀ c ∈ back.toList.head?, Separator c))

/-- **The free places of a notation are its gaps.** -/
theorem free_iff_gap {front back : String}
    (h : ∀ c ∈ front.toList ++ back.toList, writable c = true) :
    Free front back ↔ Gap front.toList back.toList := by
  have hfront : (∀ c ∈ front.toList.getLast?, Separator c) ↔
      ∀ c ∈ front.toList.getLast?, Reader.inTerm c = false :=
    forall₂_congr fun c hc =>
      separator_iff (h c (List.mem_append_left _ (List.mem_of_getLast? hc)))
  have hback : (∀ c ∈ back.toList.head?, Separator c) ↔ Clear Reader.inTerm back.toList :=
    forall₂_congr fun c hc =>
      separator_iff (h c (List.mem_append_right _ (List.mem_of_mem_head? hc)))
  unfold Free Gap
  rw [hfront, hback]

end Grammar

namespace Expression

/-- The characters of an accepted text are those of the notation. -/
theorem writable_of_ofChars {source : List Char} {e : Expression} (h : ofChars source = .ok e) :
    ∀ c ∈ source, writable c = true := by
  have hsplit := Scan.front_append_rest .leadingSpace source
  have hrest : (Scan.run .leadingSpace source).rest = [] := (ofChars_eq_ok_iff.1 h).1
  have hwritable := Scan.writable_of_mem_front .leadingSpace source
  rw [hrest, List.append_nil] at hsplit
  rw [hsplit] at hwritable
  exact hwritable

/-- **Every byte offset of an accepted text is a place between two of its
characters**, which are single bytes. -/
theorem exists_split_at {source : String} {e : Expression} (h : parse source = .ok e)
    {offset : Nat} (ho : offset ≤ source.utf8ByteSize) :
    ∃ front back, source = front ++ back ∧ front.utf8ByteSize = offset := by
  -- Accepted texts are ASCII, so offsets count characters.
  have hwritable := writable_of_ofChars h
  have hlength := size_eq_length hwritable
  rw [Utf8.size_toList] at hlength
  have hfront : ∀ c ∈ source.toList.take offset, writable c = true :=
    fun c hc => hwritable c (List.mem_of_mem_take hc)
  refine ⟨String.ofList (source.toList.take offset), String.ofList (source.toList.drop offset),
    ?_, ?_⟩
  · rw [← String.ofList_append, List.take_append_drop, String.ofList_toList]
  · rw [← Utf8.size_toList, String.toList_ofList, size_eq_length hfront, List.length_take]
    omega

/-- A text with a number of spaces between its two parts. -/
def spaced (front : String) (k : Nat) (back : String) : String :=
  front ++ String.ofList (List.replicate k ' ') ++ back

/-- **SPACES MATTER EXACTLY INSIDE TERMS.**  Every byte offset of an accepted
text parts it in two; wherever that is, spaces put in between leave the meaning
as it is if the place is free, and make the text unreadable if it is not.  And
without its spaces the text is accepted with the same meaning. -/
theorem spacing {source : String} {e : Expression} (h : parse source = .ok e) :
    (∀ offset, offset ≤ source.utf8ByteSize →
      ∃ front back, source = front ++ back ∧ front.utf8ByteSize = offset) ∧
    (∀ front back, source = front ++ back → ∀ k, 1 ≤ k →
      (Free front back → parse (spaced front k back) = .ok e) ∧
        (¬Free front back → ∃ position excerpt,
          parse (spaced front k back) = .error (.unreadable position excerpt))) ∧
    parse (String.ofList (withoutSpaces source.toList)) = .ok e := by
  have hspells : Spells source.toList e := spells_of_ofChars h
  refine ⟨fun offset ho => exists_split_at h ho, ?_, ?_⟩
  · rintro front back rfl k hk
    have hspaces : Spaces (List.replicate k ' ') := fun c hc => (List.mem_replicate.1 hc).2
    have hne : List.replicate k ' ' ≠ [] := by
      rw [Ne, List.replicate_eq_nil_iff]
      omega
    have hwritable := writable_of_ofChars h
    rw [String.toList_append] at hspells hwritable
    -- From strings to lists of characters, on which the gaps are told.
    have hspaced : parse (spaced front k back)
        = ofChars (front.toList ++ (List.replicate k ' ' ++ back.toList)) := by
      unfold parse spaced
      simp
    rw [hspaced, free_iff_gap hwritable]
    constructor
    · intro hgap
      exact ofChars_of_spells (hspells.insert hspaces hgap)
    · intro hgap
      exact error_of_parted hgap hspaces hne
  · unfold parse
    rw [String.toList_ofList]
    exact ofChars_of_spells hspells.withoutSpaces

/-- Spaces behind a group of dice, and inside the group and the constant. -/
theorem spacing_of_two_dice_less_ten :
    parse "2d6 - 10" = .ok ⟨[.dice ⟨2, 6, .positive⟩, .constant ⟨-10⟩]⟩ ∧
      parse (spaced "2d6" 2 " - 10") = .ok ⟨[.dice ⟨2, 6, .positive⟩, .constant ⟨-10⟩]⟩ ∧
      (∃ position excerpt, parse (spaced "2" 1 "d6 - 10")
        = .error (.unreadable position excerpt)) ∧
      (∃ position excerpt, parse (spaced "2d6 - 1" 3 "0")
        = .error (.unreadable position excerpt)) ∧
      parse (String.ofList (withoutSpaces "2d6 - 10".toList))
        = .ok ⟨[.dice ⟨2, 6, .positive⟩, .constant ⟨-10⟩]⟩ := by
  have h : parse "2d6 - 10" = .ok ⟨[.dice ⟨2, 6, .positive⟩, .constant ⟨-10⟩]⟩ := by decide +kernel
  obtain ⟨-, hspaced, hwithout⟩ := spacing h
  refine ⟨h, ?_, ?_, ?_, hwithout⟩
  · exact (hspaced "2d6" " - 10" (by decide) 2 (by decide)).1 (by simp [Free, Separator])
  · exact (hspaced "2" "d6 - 10" (by decide) 1 (by decide)).2 (by simp [Free, Separator])
  · exact (hspaced "2d6 - 1" "0" (by decide) 3 (by decide)).2 (by simp [Free, Separator])

end Expression

end TabletopDice
