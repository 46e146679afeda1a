/-
  TabletopDice.Proofs.Grammar.Rejection
  ──────────────────────────────────────
  **WHICH TEXTS ARE REFUSED, AND WITH WHICH ERROR.**

  The last token of a scan decides between the two errors without a position,
  but it is known only when the scan is over.  What such a scan has read is
  recovered from its end:

    • `spaces_of_tokens_eq_nil` — no token at all: nothing but spaces,
    • `exists_last_operator` — an operator last: its sign, and then spaces,
    • `exists_ofChars_of_used` — in front of a sign that a scan has passed
      stands an accepted text, wherever the sign is,
    • `parse_error_iff` — the three errors, each by the texts it is for.
-/
import TabletopDice.Proofs.Grammar.Composition

namespace TabletopDice

open Grammar

/-! ## §1. Nothing but spaces. -/

/-- A piece without a token is a run of spaces. -/
theorem Grammar.spaces_of_token_none {slot : Slot} {source : List Char} {m : Match}
    (h : slot.pattern.read? source = some m) (hnone : m.token = none) : Spaces m.text := by
  -- Terms and operators leave tokens, so the slot is one for spaces.
  cases slot with
  | leadingSpace => exact (spaces_of_space? h).1
  | term =>
      obtain ⟨t, -, htoken⟩ := termText_of_read? h
      simp [htoken] at hnone
  | trailingSpace => exact (spaces_of_space? h).1
  | operator =>
      obtain ⟨op, rest, -, rfl⟩ := Reader.operator?_eq_some_iff.1 h
      simp at hnone

namespace Scan

/-- **A scan that uses its text up and finds no token has passed over spaces
only.** -/
theorem spaces_of_tokens_eq_nil (slot : Slot) (source : List Char) :
    (run slot source).rest = [] → (run slot source).tokens = [] → Spaces source := by
  induction slot, source using run_induct with
  | usedUp slot =>
      intro _ _ c hc
      cases hc
  | stuck slot source hs h =>
      rw [run_of_none h]
      intro hrest
      exact absurd hrest hs
  | round slot source m hs h ih =>
      rw [rest_run_of_some hs h, tokens_run_of_some hs h]
      intro hrest htokens
      -- Neither this round nor a later one leaves a token.
      obtain ⟨hpiece, hmore⟩ := List.append_eq_nil_iff.1 htokens
      have htext : Spaces m.text := spaces_of_token_none h (by simpa using hpiece)
      have hnext : Spaces m.rest := ih hrest hmore
      rw [← Pattern.read?_append h]
      intro c hc
      rcases List.mem_append.1 hc with hc | hc
      · exact htext c hc
      · exact hnext c hc

/-- Spaces are used up and leave no token. -/
theorem reads_spaces {source : List Char} (h : Spaces source) :
    Reads .leadingSpace source [] := by
  rw [← List.append_nil source]
  exact .spaces .leadingSpace rfl h (Clear.nil _) (.nil _)

end Scan

namespace Expression

/-- Only where there is no token the outcome is empty. -/
theorem ofTokens_eq_empty_iff {tokens : List Token} :
    ofTokens tokens = .error .empty ↔ tokens = [] := by
  unfold ofTokens
  cases tokens with
  | nil => simp
  | cons token tokens =>
      rw [List.getLast?_cons]
      split <;> simp_all

/-- Only where an operator comes last the outcome is a trailing operator. -/
theorem ofTokens_eq_trailingOperator_iff {tokens : List Token} :
    ofTokens tokens = .error .trailingOperator ↔
      ∃ op, tokens.getLast? = some (.operator op) := by
  unfold ofTokens
  split <;> simp_all

/-- **Empty is what holds nothing but spaces.** -/
theorem ofChars_eq_empty_iff {source : List Char} :
    ofChars source = .error .empty ↔ Spaces source := by
  constructor
  · intro h
    -- A stuck scan gives an error with a place, so the text was used up.
    by_cases hrest : (Scan.ofText source).rest = []
    · rw [ofChars_of_used hrest, ofTokens_eq_empty_iff] at h
      exact Scan.spaces_of_tokens_eq_nil .leadingSpace source hrest h
    · rw [ofChars_of_stuck hrest] at h
      cases h
  · intro h
    obtain ⟨hrest, htokens⟩ := Scan.reads_spaces h
    rw [ofChars_of_used hrest]
    exact ofTokens_eq_empty_iff.2 htokens

end Expression

/-! ## §2. In front of a sign. -/

/-- **One round earlier there is still a term to end with**, if there is one
behind the round. -/
theorem Grammar.endsInTerm_of_next {slot : Slot} {source : List Char} {m : Match}
    {tokens : List Token} (h : slot.pattern.read? source = some m)
    (hend : EndsInTerm slot.next tokens) : EndsInTerm slot (m.token.toList ++ tokens) := by
  -- The converse of `endsInTerm_next`, slot by slot.
  cases slot with
  | leadingSpace =>
      rw [(spaces_of_space? h).2]
      exact hend
  | term =>
      obtain ⟨t, -, htoken⟩ := termText_of_read? h
      rw [htoken]
      show ∃ u, (Token.term t :: tokens).getLast? = some (.term u)
      rw [List.getLast?_cons]
      -- Behind the term no operator comes last, so it is a term or nothing.
      cases hlast : tokens.getLast? with
      | none => exact ⟨t, rfl⟩
      | some token =>
          cases token with
          | term u => exact ⟨u, rfl⟩
          | operator op => exact absurd hlast (hend op)
  | trailingSpace =>
      rw [(spaces_of_space? h).2]
      exact hend
  | operator =>
      obtain ⟨op, rest, -, rfl⟩ := Reader.operator?_eq_some_iff.1 h
      obtain ⟨t, ht⟩ : ∃ t, tokens.getLast? = some (.term t) := hend
      intro op'
      show (Token.operator op :: tokens).getLast? ≠ some (.operator op')
      rw [List.getLast?_cons, ht]
      simp

namespace Scan

/-- **A scan that is left looking for an operator has ended behind a term.** -/
theorem endsInTerm_of_after (slot : Slot) (source : List Char) :
    (run slot source).rest = [] →
      slot.after (run slot source).steps.length = .trailingSpace ∨
        slot.after (run slot source).steps.length = .operator →
      EndsInTerm slot (run slot source).tokens := by
  induction slot, source using run_induct with
  | usedUp slot =>
      rw [run_nil]
      -- No round was made, so the slot is the one to look for an operator in.
      rintro _ (rfl | rfl)
      · intro op hop
        cases hop
      · intro op hop
        cases hop
  | stuck slot source hs h =>
      rw [run_of_none h]
      intro hrest
      exact absurd hrest hs
  | round slot source m hs h ih =>
      rw [tokens_run_of_some hs h, run_of_some hs h]
      intro hrest hafter
      exact endsInTerm_of_next h (ih hrest hafter)

/-- No term begins with a sign, so a scan that passes one was looking for an
operator. -/
theorem slot_of_used_operatorSign {slot : Slot} {op : Operator} {back : List Char}
    (h : (run slot (operatorSign op :: back)).rest = []) :
    slot = .trailingSpace ∨ slot = .operator := by
  have hne : operatorSign op :: back ≠ [] := List.cons_ne_nil _ _
  have hterm : Slot.term.pattern.read? (operatorSign op :: back) = none := by
    cases op with
    | add => rfl
    | sub => rfl
  have hstuck : (run .term (operatorSign op :: back)).rest ≠ [] := by
    rw [run_of_none hterm]
    exact hne
  cases slot with
  | leadingSpace =>
      -- The slot for spaces passes the sign on to the term slot.
      rw [rest_run_of_some hne (Slot.leadingSpace.read?_operatorSign rfl op back)] at h
      exact absurd h hstuck
  | term => exact absurd h hstuck
  | trailingSpace => exact .inl rfl
  | operator => exact .inr rfl

end Scan

/-- **In front of every sign that a scan has passed stands an accepted text.**
The sign is a barrier, so the scan came to it as to the end of the text. -/
theorem Expression.exists_ofChars_of_used {front back : List Char} {op : Operator}
    (h : (Scan.ofText (front ++ operatorSign op :: back)).rest = []) :
    ∃ e, ofChars front = .ok e := by
  have hrun : Scan.ofText (front ++ operatorSign op :: back)
      = (Scan.ofText front).followedBy .leadingSpace (operatorSign op :: back) :=
    Scan.run_append (Barrier.operatorSign op back) .leadingSpace front
  -- A scan stuck in the front part would not have come to the sign at all.
  by_cases hrest : (Scan.ofText front).rest = []
  · rw [hrun, Scan.followedBy_of_used hrest] at h
    have hend := Scan.endsInTerm_of_after .leadingSpace front hrest
      (Scan.slot_of_used_operatorSign h)
    exact ⟨_, ofChars_eq_ok_iff.2 ⟨hrest, hend, rfl⟩⟩
  · rw [hrun, Scan.followedBy_of_stuck hrest] at h
    exact absurd (List.append_eq_nil_iff.1 h).1 hrest

/-! ## §3. An operator last. -/

/-- **A scan that ends behind an operator has read its sign, and then spaces
only.** -/
theorem Scan.exists_last_operator (op : Operator) (slot : Slot) (source : List Char) :
    (run slot source).rest = [] →
      (run slot source).tokens.getLast? = some (.operator op) →
      ∃ front spaces, source = front ++ operatorSign op :: spaces ∧ Spaces spaces := by
  induction slot, source using run_induct with
  | usedUp slot =>
      rw [run_nil]
      intro _ hlast
      cases hlast
  | stuck slot source hs h =>
      rw [run_of_none h]
      intro hrest
      exact absurd hrest hs
  | round slot source m hs h ih =>
      rw [rest_run_of_some hs h, tokens_run_of_some hs h, List.getLast?_append]
      intro hrest hlast
      -- The last token of all is one of a later round, or else of this one.
      cases hmore : (run slot.next m.rest).tokens.getLast? with
      | some token =>
          -- The operator comes later, and this piece stands in front of it.
          rw [hmore, Option.some_or] at hlast
          obtain ⟨front, spaces, hsource, hspaces⟩ := ih hrest (hmore.trans hlast)
          refine ⟨m.text ++ front, spaces, ?_, hspaces⟩
          rw [← Pattern.read?_append h, hsource, List.append_assoc]
      | none =>
          -- This piece is the operator, and no token is left for the rest.
          have hrestSpaces : Spaces m.rest :=
            spaces_of_tokens_eq_nil slot.next m.rest hrest (List.getLast?_eq_none_iff.1 hmore)
          rw [hmore, Option.none_or] at hlast
          cases slot with
          | leadingSpace => simp [(spaces_of_space? h).2] at hlast
          | term =>
              obtain ⟨t, -, htoken⟩ := termText_of_read? h
              simp [htoken] at hlast
          | trailingSpace => simp [(spaces_of_space? h).2] at hlast
          | operator =>
              obtain ⟨op', rest, rfl, rfl⟩ := Reader.operator?_eq_some_iff.1 h
              have hop : op' = op := by simpa using hlast
              subst hop
              exact ⟨[], rest, rfl, hrestSpaces⟩

namespace Expression

/-- **An operator is left trailing by an accepted text, a sign and spaces**,
and by nothing else. -/
theorem ofChars_eq_trailingOperator_iff {source : List Char} :
    ofChars source = .error .trailingOperator ↔
      ∃ front op spaces e, source = front ++ operatorSign op :: spaces ∧ Spaces spaces ∧
        ofChars front = .ok e := by
  constructor
  · intro h
    by_cases hrest : (Scan.ofText source).rest = []
    · rw [ofChars_of_used hrest, ofTokens_eq_trailingOperator_iff] at h
      obtain ⟨op, hlast⟩ := h
      -- The last operator is found from the end; what stands in front of it is
      -- accepted because the scan came past it.
      obtain ⟨front, spaces, rfl, hspaces⟩ :=
        Scan.exists_last_operator op .leadingSpace source hrest hlast
      obtain ⟨e, he⟩ := exists_ofChars_of_used hrest
      exact ⟨front, op, spaces, e, rfl, hspaces, he⟩
    · rw [ofChars_of_stuck hrest] at h
      cases h
  · rintro ⟨front, op, spaces, e, rfl, hspaces, he⟩
    -- Behind an accepted text and a sign, spaces are read as if they stood alone.
    rw [ofChars_append_operator he, ofChars_eq_empty_iff.2 hspaces]
    rfl

/-! ## §4. The errors. -/

/-- The text breaks off behind an operator: an accepted text, a sign, and any
number of spaces. -/
def BreaksOff (source : String) : Prop :=
  ∃ (front : String) (op : Operator) (k : Nat) (e : Expression), parse front = .ok e ∧
    source = front ++ String.singleton (operatorSign op) ++ String.ofList (List.replicate k ' ')

/-- The same in characters, as the scan sees the text. -/
theorem breaksOff_iff {source : String} :
    BreaksOff source ↔ ∃ front op spaces e, source.toList = front ++ operatorSign op :: spaces ∧
      Spaces spaces ∧ ofChars front = .ok e := by
  constructor
  · rintro ⟨front, op, k, e, he, rfl⟩
    refine ⟨front.toList, op, List.replicate k ' ', e, ?_, ?_, he⟩
    · simp
    · intro c hc
      exact (List.mem_replicate.1 hc).2
  · rintro ⟨front, op, spaces, e, hsource, hspaces, he⟩
    refine ⟨String.ofList front, op, spaces.length, e, ?_, ?_⟩
    · unfold parse
      rw [String.toList_ofList]
      exact he
    · rw [← List.eq_replicate_of_mem hspaces, ← String.toList_inj, hsource]
      simp

/-- **An operator is left trailing exactly where the text breaks off.** -/
theorem parse_eq_trailingOperator_iff {source : String} :
    parse source = .error .trailingOperator ↔ BreaksOff source := by
  rw [breaksOff_iff]
  exact ofChars_eq_trailingOperator_iff

/-- **REJECTIONS ARE CLASSIFIED EXACTLY**: empty is a text of spaces only,
a trailing operator is what breaks off behind one, and all else that is not
accepted is unreadable somewhere. -/
theorem parse_error_iff (source : String) :
    (parse source = .error .empty ↔ Spaces source.toList) ∧
      (parse source = .error .trailingOperator ↔ BreaksOff source) ∧
      ((∃ position excerpt, parse source = .error (.unreadable position excerpt)) ↔
        (∀ e, parse source ≠ .ok e) ∧ ¬Spaces source.toList ∧ ¬BreaksOff source) := by
  have hempty : parse source = .error .empty ↔ Spaces source.toList := ofChars_eq_empty_iff
  refine ⟨hempty, parse_eq_trailingOperator_iff, ?_⟩
  -- Three of the four kinds of outcome are told, so the fourth is all else.
  rw [← hempty, ← parse_eq_trailingOperator_iff]
  cases parse source with
  | ok e => simp
  | error err =>
      cases err with
      | unreadable position excerpt => simp
      | trailingOperator => simp
      | empty => simp

example : parse "2d6 - 3 +  " = .error .trailingOperator := by cbv

example : parse "2d6 - + " = .error (.unreadable 6 "+ ") := by cbv

end Expression

end TabletopDice
