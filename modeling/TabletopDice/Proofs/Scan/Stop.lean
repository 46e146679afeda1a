/-
  TabletopDice.Proofs.Scan.Stop
  ──────────────────────────────────────
  **WHERE READING STOPS, AND WHAT AN ERROR SAYS OF THE PLACE.**

  A scan that gets stuck has read a front of its source.  Cut off there, the
  front is read once more and to the same tokens: a piece never hangs on the
  characters behind the place, although the readers look ahead past it.  So
  the place of an error can be told by what becomes of the front alone.

    • `Scan.reads_front` — the front, cut off, is used up and gives the same
      tokens,
    • `Scan.stuck_slot` — behind a term an operator is missing, anywhere else
      a term is,
    • `Scan.clear_space_rest` — never a space: the spaces in front of the place
      were all read,
    • `Scan.writable_of_mem_front` — the front has only characters of the
      notation, which are single bytes,
    • `Expression.located_error` — the error of a text against its place.
-/
import TabletopDice.Proofs.Grammar.Rejection
import TabletopDice.Proofs.Scan.Trace

namespace TabletopDice

open Grammar

/-! ## §1. The characters of the notation. -/

namespace Grammar

/-- The characters that a notation is written with. -/
def writable (c : Char) : Bool := c.isDigit || ['d', 'D', '%', '+', '-', ' '].contains c

theorem writable_of_inTerm {c : Char} (h : Reader.inTerm c = true) : writable c = true := by
  unfold Reader.inTerm at h
  simp only [Bool.or_eq_true, beq_iff_eq] at h
  unfold writable
  obtain ((hc | rfl) | rfl) | rfl := h
  · simp [hc]
  · decide
  · decide
  · decide

/-- **Each of them is a single byte.** -/
theorem utf8Size_of_writable {c : Char} (h : writable c = true) : c.utf8Size = 1 := by
  unfold writable at h
  rw [Bool.or_eq_true] at h
  -- Digits are at most nine, which is ASCII; the others are tried one by one.
  obtain hdigit | hother := h
  · have hle : c.toNat ≤ '9'.toNat := (Char.isDigit_iff_toNat.1 hdigit).2
    have hascii : c.val ≤ 127 := UInt32.le_iff_toNat_le.2 (Nat.le_trans hle (by decide))
    exact Char.utf8Size_eq_one_iff.2 hascii
  · have hmem : c ∈ ['d', 'D', '%', '+', '-', ' '] := List.contains_iff_mem.1 hother
    simp only [List.mem_cons, List.not_mem_nil, or_false] at hmem
    rcases hmem with rfl | rfl | rfl | rfl | rfl | rfl <;> decide

/-- So in such a text bytes count as characters. -/
theorem size_eq_length {text : List Char} (h : ∀ c ∈ text, writable c = true) :
    Utf8.size text = text.length := by
  induction text with
  | nil => rfl
  | cons c text ih =>
      have hc := utf8Size_of_writable (h c List.mem_cons_self)
      have hmore := ih fun d hd => h d (List.mem_cons_of_mem c hd)
      rw [Utf8.size_cons, List.length_cons]
      omega

/-- A count is digits, where it is written at all. -/
theorem CountText.isDigit {text : List Char} {n : Nat} (h : CountText text n) :
    ∀ c ∈ text, c.isDigit = true := by
  cases h with
  | omitted => simp
  | written h => exact h.digits

/-- A percent sign stands in a term, and so do digits. -/
theorem SidesText.inTerm {text : List Char} {n : Nat} (h : SidesText text n) :
    ∀ c ∈ text, Reader.inTerm c = true := by
  cases h with
  | percentile =>
      intro c hc
      rw [List.mem_singleton.1 hc]
      decide
  | written h => exact fun c hc => Reader.inTerm_of_isDigit (h.digits c hc)

/-- **A term holds characters of terms only.** -/
theorem TermText.inTerm {text : List Char} {t : Term} (h : TermText text t) :
    ∀ c ∈ text, Reader.inTerm c = true := by
  cases h with
  | constant h => exact fun c hc => Reader.inTerm_of_isDigit (h.digits c hc)
  | dice hcount hletter hsides =>
      intro c hc
      rw [List.mem_append, List.mem_cons] at hc
      rcases hc with hc | rfl | hc
      · exact Reader.inTerm_of_isDigit (hcount.isDigit c hc)
      · rcases hletter with rfl | rfl <;> decide
      · exact hsides.inTerm c hc

end Grammar

/-- What a step has read is written with the characters of the notation. -/
theorem ScanStep.Sound.writable {step : ScanStep} (h : step.Sound) :
    ∀ c ∈ step.text, Grammar.writable c = true := by
  obtain ⟨slot, text, token⟩ := step
  have hspaces : Spaces text → ∀ c ∈ text, Grammar.writable c = true := by
    intro hs c hc
    rw [hs c hc]
    decide
  cases slot with
  | leadingSpace => exact hspaces h.1
  | term =>
      obtain ⟨t, htext, -⟩ := h
      exact fun c hc => writable_of_inTerm (htext.inTerm c hc)
  | trailingSpace => exact hspaces h.1
  | operator =>
      obtain ⟨op, rfl, -⟩ : ∃ op, text = [operatorSign op] ∧ token = some (.operator op) := h
      intro c hc
      rw [List.mem_singleton.1 hc]
      cases op <;> decide

/-! ## §2. The front that a scan has read. -/

namespace Scan

/-- What a scan has read of its source. -/
def front (s : Scan) : List Char := s.steps.flatMap ScanStep.text

/-- A scan parts its source into a front and a rest. -/
theorem front_append_rest (slot : Slot) (source : List Char) :
    (run slot source).front ++ (run slot source).rest = source := text_append_rest slot source

/-- The bytes of a text are those that its scan has read and those that it
leaves. -/
theorem size_front_add_size_rest (source : List Char) :
    Utf8.size (ofText source).front + Utf8.size (ofText source).rest = Utf8.size source := by
  rw [← Utf8.size_append]
  exact congrArg Utf8.size (front_append_rest .leadingSpace source)

theorem front_run_nil (slot : Slot) : (run slot []).front = [] := by
  rw [run_nil]
  rfl

/-- A slot that finds nothing reads nothing. -/
theorem front_run_of_none {slot : Slot} {source : List Char}
    (h : slot.pattern.read? source = none) : (run slot source).front = [] := by
  rw [run_of_none h]
  rfl

/-- A round adds its piece in front. -/
theorem front_run_of_some {slot : Slot} {source : List Char} {m : Match}
    (hs : source ≠ []) (h : slot.pattern.read? source = some m) :
    (run slot source).front = m.text ++ (run slot.next m.rest).front := by
  rw [run_of_some hs h]
  rfl

/-- The front has only characters of the notation. -/
theorem writable_of_mem_front (slot : Slot) (source : List Char) :
    ∀ c ∈ (run slot source).front, writable c = true := by
  intro c hc
  obtain ⟨step, hstep, hmem⟩ := List.mem_flatMap.1 hc
  exact (sound_of_mem slot source step hstep).writable c hmem

/-- **Behind a term the front goes on with a space or a sign**, if it goes on
at all, and not with more of the term. -/
theorem clear_inTerm_front (slot : Slot) (source : List Char) :
    slot = .trailingSpace ∨ slot = .operator → Clear Reader.inTerm (run slot source).front := by
  induction slot, source using run_induct with
  | usedUp slot =>
      intro _
      rw [front_run_nil]
      exact Clear.nil _
  | stuck slot source hs h =>
      intro _
      rw [front_run_of_none h]
      exact Clear.nil _
  | round slot source m hs h ih =>
      rw [front_run_of_some hs h]
      rintro (rfl | rfl)
      · -- Where no space is read, the operator slot comes next.
        have hspaces := (spaces_of_space? h).1
        cases htext : m.text with
        | nil => exact ih (.inr rfl)
        | cons c text =>
            rw [htext] at hspaces
            exact Clear.cons_iff.2 (Clear.cons_iff.1 hspaces.clear_inTerm)
      -- In the operator slot the front goes on with the sign that is read there.
      · obtain ⟨op, rest, -, rfl⟩ := Reader.operator?_eq_some_iff.1 h
        exact Barrier.operatorSign op _ .term

/-- A front part of a text without a space in front has none there either. -/
theorem clear_space_front {slot : Slot} {source : List Char} (h : Clear (· = ' ') source) :
    Clear (· = ' ') (run slot source).front := by
  have hsplit := front_append_rest slot source
  intro c hc
  -- The first character of the front, if there is one, is that of the source.
  cases hfront : (run slot source).front with
  | nil =>
      rw [hfront] at hc
      cases hc
  | cons d front =>
      rw [hfront] at hc hsplit
      refine h c ?_
      rw [← hsplit]
      exact hc

/-- Every run of spaces is read to its end. -/
theorem clear_space_of_space? {source : List Char} {m : Match}
    (h : Reader.space? source = some m) : Clear (· = ' ') m.rest := by
  cases h
  intro c hc
  have hnot := List.head?_dropWhile_not (fun d : Char => decide (d = ' ')) source
  rw [Option.mem_def.1 hc] at hnot
  simpa using hnot

/-- **CUT OFF WHERE THE SCAN STOPPED, A TEXT IS READ TO THE SAME TOKENS** and to
its end. -/
theorem reads_front (slot : Slot) (source : List Char) :
    Reads slot (run slot source).front (run slot source).tokens := by
  -- Round by round: the piece of a slot is read in front of the shorter rest
  -- as it was in front of the longer one, since both are clear of the slot.
  induction slot, source using run_induct with
  | usedUp slot =>
      rw [front_run_nil, run_nil]
      exact .nil slot
  -- Cut off here, nothing is left to get stuck at.
  | stuck slot source hs h =>
      rw [front_run_of_none h, run_of_none h]
      exact .nil slot
  | round slot source m hs h ih =>
      rw [front_run_of_some hs h, tokens_run_of_some hs h]
      cases slot with
      | leadingSpace =>
          obtain ⟨hspaces, htoken⟩ := spaces_of_space? h
          rw [htoken]
          exact .spaces .leadingSpace rfl hspaces (clear_space_front (clear_space_of_space? h)) ih
      | term =>
          obtain ⟨t, htext, htoken⟩ := termText_of_read? h
          rw [htoken]
          exact .term htext (clear_inTerm_front .trailingSpace m.rest (.inl rfl)) ih
      | trailingSpace =>
          obtain ⟨hspaces, htoken⟩ := spaces_of_space? h
          rw [htoken]
          exact .spaces .trailingSpace rfl hspaces (clear_space_front (clear_space_of_space? h)) ih
      | operator =>
          obtain ⟨op, rest, -, rfl⟩ := Reader.operator?_eq_some_iff.1 h
          exact .operator op ih

end Scan

/-! ## §3. The slot where a scan gets stuck. -/

/-- No sign stands where the operator slot finds nothing. -/
theorem Slot.head?_of_operator_none {source : List Char}
    (h : Slot.operator.pattern.read? source = none) (op : Operator) :
    source.head? ≠ some (operatorSign op) := by
  intro hhead
  obtain ⟨rest, rfl⟩ := List.head?_eq_some_iff.1 hhead
  have hread : Slot.operator.pattern.read? (operatorSign op :: rest)
      = some ⟨[operatorSign op], some (.operator op), rest⟩ :=
    Reader.operator?_eq_some_iff.2 ⟨op, rest, rfl, rfl⟩
  rw [hread] at h
  cases h

/-- Neither a group nor a constant stands where the term slot finds nothing. -/
theorem Slot.readers_of_term_none {source : List Char}
    (h : Slot.term.pattern.read? source = none) :
    Reader.dice? source = none ∧ Reader.constant? source = none := by
  rw [Slot.read?_term] at h
  exact Option.or_eq_none_iff.1 h

namespace Scan

/-- **A stuck scan lacks an operator behind a term, and a term anywhere
else.**  The slots for spaces always find something. -/
theorem stuck_slot (slot : Slot) (source : List Char) :
    (run slot source).rest ≠ [] →
      EndsInTerm slot (run slot source).tokens ∧
          Slot.operator.pattern.read? (run slot source).rest = none ∨
        ¬EndsInTerm slot (run slot source).tokens ∧
          Slot.term.pattern.read? (run slot source).rest = none := by
  induction slot, source using run_induct with
  | usedUp slot =>
      rw [run_nil]
      intro hrest
      exact absurd rfl hrest
  | stuck slot source hs h =>
      rw [run_of_none h]
      intro _
      -- The slot is the one that found nothing, and no token was read before it.
      cases slot with
      | leadingSpace => cases h
      | term =>
          refine .inr ⟨?_, h⟩
          rintro ⟨t, ht⟩
          cases ht
      | trailingSpace => cases h
      | operator =>
          refine .inl ⟨?_, h⟩
          intro op hop
          cases hop
  | round slot source m hs h ih =>
      rw [rest_run_of_some hs h, tokens_run_of_some hs h]
      intro hrest
      -- Whether a term came last is not changed by a round, either way.
      obtain ⟨hend, hnone⟩ | ⟨hend, hnone⟩ := ih hrest
      · exact .inl ⟨endsInTerm_of_next h hend, hnone⟩
      · exact .inr ⟨fun hmore => hend (endsInTerm_next h hmore), hnone⟩

/-- **A scan never gets stuck at a space**, unless it begins there with a slot
that looks for something else. -/
theorem clear_space_rest (slot : Slot) (source : List Char) :
    (slot = .term ∨ slot = .operator → Clear (· = ' ') source) →
      Clear (· = ' ') (run slot source).rest := by
  induction slot, source using run_induct with
  | usedUp slot =>
      rw [run_nil]
      intro _
      exact Clear.nil _
  | stuck slot source hs h =>
      rw [run_of_none h]
      intro hclear
      cases slot with
      | leadingSpace => cases h
      | term => exact hclear (.inl rfl)
      | trailingSpace => cases h
      | operator => exact hclear (.inr rfl)
  -- In front of the two other slots a slot for spaces has just read them all.
  | round slot source m hs h ih =>
      rw [rest_run_of_some hs h]
      intro _
      cases slot with
      | leadingSpace => exact ih fun _ => clear_space_of_space? h
      | term => exact ih fun hnext => by simp [Slot.next] at hnext
      | trailingSpace => exact ih fun _ => clear_space_of_space? h
      | operator => exact ih fun hnext => by simp [Slot.next] at hnext

end Scan

/-! ## §4. The place of an error. -/

namespace Expression

/-- **What becomes of the front alone** is what its tokens come to. -/
theorem ofChars_front (source : List Char) :
    ofChars (Scan.ofText source).front = ofTokens (Scan.ofText source).tokens := by
  obtain ⟨hrest, htokens⟩ := Scan.reads_front .leadingSpace source
  have hused : ofChars (Scan.ofText source).front
      = ofTokens (Scan.ofText (Scan.ofText source).front).tokens := ofChars_of_used hrest
  rw [hused]
  exact congrArg ofTokens htokens

/-- Where its tokens make an expression a scan was left behind a term. -/
theorem endsInTerm_iff_exists_ok {tokens : List Token} :
    EndsInTerm .leadingSpace tokens ↔ ∃ e, ofTokens tokens = .ok e := by
  simp only [ofTokens_eq_ok_iff]
  constructor
  · intro hlast
    exact ⟨_, hlast, rfl⟩
  · rintro ⟨e, hlast, -⟩
    exact hlast

/-- The tokens of a text that is used up make no error with a place. -/
theorem ofTokens_ne_unreadable (tokens : List Token) (position : Nat) (excerpt : String) :
    ofTokens tokens ≠ .error (.unreadable position excerpt) := by
  unfold ofTokens
  split <;> simp

/-- **Reading stops between the two parts**: the front can be read and has
only characters of the notation, and the rest does not go on with what has to
come next. -/
structure StopsBetween (front rest : List Char) : Prop where
  unread : rest ≠ []
  written : ∀ c ∈ front, writable c = true
  no_space : Clear (· = ' ') rest
  readable : ∀ position excerpt, ofChars front ≠ .error (.unreadable position excerpt)
  no_operator : ∀ e, ofChars front = .ok e → ∀ op, rest.head? ≠ some (operatorSign op)
  no_term : (∀ e, ofChars front ≠ .ok e) →
    Reader.dice? rest = none ∧ Reader.constant? rest = none

/-- **A stuck scan stops between its front and its rest.** -/
theorem stopsBetween_of_stuck {source : List Char} (h : (Scan.ofText source).rest ≠ []) :
    StopsBetween (Scan.ofText source).front (Scan.ofText source).rest where
  unread := h
  written := Scan.writable_of_mem_front .leadingSpace source
  no_space := Scan.clear_space_rest .leadingSpace source (by simp)
  readable := by
    rw [ofChars_front]
    exact ofTokens_ne_unreadable _
  no_operator := by
    rw [ofChars_front]
    intro e he
    have hend := endsInTerm_iff_exists_ok.2 ⟨e, he⟩
    -- The front is accepted, so the scan was left behind a term.
    obtain ⟨-, hnone⟩ | ⟨hnot, -⟩ := Scan.stuck_slot .leadingSpace source h
    · exact Slot.head?_of_operator_none hnone
    · exact absurd hend hnot
  no_term := by
    rw [ofChars_front]
    intro hne
    -- Else it was not, for then the tokens would make an expression.
    obtain ⟨hend, -⟩ | ⟨-, hnone⟩ := Scan.stuck_slot .leadingSpace source h
    · obtain ⟨e, he⟩ := endsInTerm_iff_exists_ok.1 hend
      exact absurd he (hne e)
    · exact Slot.readers_of_term_none hnone

/-- **Only a scan that gets stuck has an error with a place**: it shows how many
bytes the scan came, and what it found there. -/
theorem exists_stopsBetween {source : List Char} {position : Nat} {excerpt : String}
    (h : ofChars source = .error (.unreadable position excerpt)) :
    ∃ front rest, source = front ++ rest ∧ Utf8.size front = position ∧
      excerpt.toList = rest.take 10 ∧ StopsBetween front rest := by
  by_cases hrest : (Scan.ofText source).rest = []
  · rw [ofChars_of_used hrest] at h
    exact absurd h (ofTokens_ne_unreadable _ position excerpt)
  · have hsplit : (Scan.ofText source).front ++ (Scan.ofText source).rest = source :=
      Scan.front_append_rest .leadingSpace source
    have hsize := Scan.size_front_add_size_rest source
    rw [ofChars_of_stuck hrest] at h
    cases h
    exact ⟨_, _, hsplit.symm, by omega, String.toList_ofList, stopsBetween_of_stuck hrest⟩

end Expression

/-- **The place of an error is real and consistent.**  It lies inside the text
and between two characters; as many characters as bytes stand in front of it,
all of them of the notation; what stands behind it begins with no space, and
with the excerpt.  The front alone is not unreadable: where it is accepted no
operator follows, and where it breaks off or is empty no term does. -/
structure Located (source : String) (position : Nat) (excerpt front rest : String) : Prop where
  split : source = front ++ rest
  bytes : front.utf8ByteSize = position
  characters : front.length = position
  inside : position < source.utf8ByteSize
  boundary : String.Pos.Raw.IsValid source ⟨position⟩
  written : ∀ c ∈ front.toList, writable c = true
  no_space : rest.toList.head? ≠ some ' '
  excerpt_eq : excerpt.toList = rest.toList.take (min 10 rest.length)
  excerpt_ne : excerpt ≠ ""
  readable : ∀ p x, Expression.parse front ≠ .error (.unreadable p x)
  no_operator : ∀ e, Expression.parse front = .ok e →
    ∀ op, rest.toList.head? ≠ some (operatorSign op)
  no_term : Expression.parse front = .error .empty ∨
      Expression.parse front = .error .trailingOperator →
    Reader.dice? rest.toList = none ∧ Reader.constant? rest.toList = none

namespace Expression

/-- **ERRORS POINT AT A REAL AND CONSISTENT PLACE**, whatever the text. -/
theorem located_error {source : String} {position : Nat} {excerpt : String}
    (h : parse source = .error (.unreadable position excerpt)) :
    ∃ front rest, Located source position excerpt front rest := by
  obtain ⟨front, rest, hsplit, hsize, hexcerpt, hstops⟩ := exists_stopsBetween h
  have hsource : source = String.ofList front ++ String.ofList rest := by
    simp [← String.toList_inj, hsplit]
  have hbytes : (String.ofList front).utf8ByteSize = position := by
    rw [← Utf8.size_toList, String.toList_ofList, hsize]
  -- Something is left, so the place lies in front of the end.
  have hunread : 0 < (String.ofList rest).utf8ByteSize := by
    have hlength := List.length_pos_iff.2 hstops.unread
    have hle := Utf8.length_le_size rest
    rw [← Utf8.size_toList, String.toList_ofList]
    omega
  have hparse : parse (String.ofList front) = ofChars front := by
    unfold parse
    rw [String.toList_ofList]
  refine ⟨String.ofList front, String.ofList rest, ?_⟩
  exact {
    split := hsource
    bytes := hbytes
    characters := by rw [String.length_ofList, ← size_eq_length hstops.written, hsize]
    inside := by
      rw [hsource, String.utf8ByteSize_append]
      omega
    boundary := by
      refine String.Pos.Raw.isValid_iff_exists_append.2 ⟨_, _, hsource, ?_⟩
      rw [← hbytes]
      rfl
    written := by simpa using hstops.written
    no_space := by
      rw [String.toList_ofList]
      intro hhead
      simpa using hstops.no_space ' ' hhead
    excerpt_eq := by
      rw [String.toList_ofList, String.length_ofList, ← List.take_eq_take_min, hexcerpt]
    excerpt_ne := by
      simp [← String.toList_inj, hexcerpt, hstops.unread]
    readable := by
      rw [hparse]
      exact hstops.readable
    no_operator := by
      rw [hparse, String.toList_ofList]
      exact hstops.no_operator
    -- Empty or broken off, the front is not accepted.
    no_term := by
      rw [hparse, String.toList_ofList]
      intro herror
      refine hstops.no_term fun e he => ?_
      rw [he] at herror
      simp at herror }

/-- Behind `2d6 - ` no term follows; the place is a byte offset although the
text goes on with a character of three bytes. -/
theorem located_error_behind_minus :
    parse "2d6 - €5" = .error (.unreadable 6 "€5") ∧
      ∃ front rest, Located "2d6 - €5" 6 "€5" front rest := by
  have h : parse "2d6 - €5" = .error (.unreadable 6 "€5") := by decide +kernel
  exact ⟨h, located_error h⟩

end Expression

end TabletopDice
