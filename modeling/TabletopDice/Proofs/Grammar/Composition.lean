/-
  TabletopDice.Proofs.Grammar.Composition
  ──────────────────────────────────────
  **PARSING IS COMPOSITIONAL AT AN OPERATOR.**

  Behind an accepted text and an operator, another text is read as if it stood
  alone, whatever comes of it.  A sign is a barrier, so the scan of the whole
  is the scan of the left part, continued; an accepted left part leaves the
  scan where an operator is looked for, at once or behind no spaces; and
  behind the sign the scan is where every scan begins.

    • `ofText_append` — the simulation: the tokens of both parts with the
      operator between them, the rest of the right part,
    • `signedTerms_of_follows` — the operator turns the first term behind it
      and no other,
    • `parse_append_operator` — every outcome of the right part.
-/
import TabletopDice.Proofs.Grammar.Acceptance

namespace TabletopDice

open Grammar

/-! ## §1. The order of the tokens. -/

namespace Token

/-- The tokens that a scan from a slot may find: terms and operators in turn,
beginning with what the slot comes to first. -/
def Follows : Slot → List Token → Prop
  | _, [] => True
  | .leadingSpace, .term _ :: tokens => Follows .trailingSpace tokens
  | .term, .term _ :: tokens => Follows .trailingSpace tokens
  | .trailingSpace, .operator _ :: tokens => Follows .leadingSpace tokens
  | .operator, .operator _ :: tokens => Follows .leadingSpace tokens
  | _, _ => False

/-- Spaces leave no token, so a slot for spaces is the next slot. -/
theorem Follows.leadingSpace {tokens : List Token} (h : Follows .term tokens) :
    Follows .leadingSpace tokens := by
  cases tokens with
  | nil => trivial
  | cons token tokens =>
      cases token with
      | term t => exact h
      | operator op => exact h.elim

/-- The same for the slot in front of an operator. -/
theorem Follows.trailingSpace {tokens : List Token} (h : Follows .operator tokens) :
    Follows .trailingSpace tokens := by
  cases tokens with
  | nil => trivial
  | cons token tokens =>
      cases token with
      | term t => exact h.elim
      | operator op => exact h

/-- Operators between the terms keep what was read before from all of them. -/
theorem signedTerms_of_trailing {tokens : List Token} (h : Follows .trailingSpace tokens)
    (a b : Operator) : signedTerms a tokens = signedTerms b tokens := by
  -- The next token is an operator, and it replaces the one read before.
  cases tokens with
  | nil => rfl
  | cons token tokens =>
      cases token with
      | term t => exact h.elim
      | operator op => rfl

/-- **An operator turns the first term behind it, and no other.** -/
theorem signedTerms_of_follows {tokens : List Token} (h : Follows .leadingSpace tokens)
    (op : Operator) :
    signedTerms op tokens = (signedTerms .add tokens).modifyHead op.apply := by
  cases tokens with
  | nil => rfl
  | cons token tokens =>
      cases token with
      | operator op' => exact h.elim
      | term t =>
          have htail : Follows .trailingSpace tokens := h
          show op.apply t :: signedTerms op tokens = op.apply t :: signedTerms .add tokens
          rw [signedTerms_of_trailing htail op .add]

/-- The operator between two runs of tokens stands for all that was read
before it. -/
theorem signedTerms_append (front : List Token) :
    ∀ (last op : Operator) (back : List Token),
      signedTerms last (front ++ .operator op :: back)
        = signedTerms last front ++ signedTerms op back := by
  -- Along the front tokens, for every operator that may have been read before them.
  induction front with
  | nil =>
      intro last op back
      rfl
  | cons token front ih =>
      intro last op back
      cases token with
      | term t =>
          show last.apply t :: signedTerms last (front ++ .operator op :: back) = _
          rw [ih]
          rfl
      | operator op' =>
          show signedTerms op' (front ++ .operator op :: back) = _
          rw [ih]
          rfl

end Token

/-- In front of a sign a slot for spaces finds none. -/
theorem Slot.read?_operatorSign (slot : Slot) (h : slot.pattern = .leaf .space) (op : Operator)
    (back : List Char) :
    slot.pattern.read? (operatorSign op :: back)
      = some ⟨[], none, operatorSign op :: back⟩ := by
  have hclear : Clear (· = ' ') (operatorSign op :: back) :=
    Barrier.operatorSign op back .trailingSpace
  rw [h]
  show some (Match.mk _ _ _) = _
  rw [hclear.takeWhile_eq_nil, hclear.dropWhile_eq_self]

namespace Scan

/-- **Terms and operators come in turn.** -/
theorem follows_tokens (slot : Slot) (source : List Char) :
    Token.Follows slot (run slot source).tokens := by
  induction slot, source using run_induct with
  | usedUp slot =>
      rw [run_nil]
      trivial
  | stuck slot source hs h =>
      rw [run_of_none h]
      trivial
  | round slot source m hs h ih =>
      rw [tokens_run_of_some hs h]
      -- Each slot leaves the token it is for, or none, and the next slot comes in turn.
      cases slot with
      | leadingSpace =>
          rw [(spaces_of_space? h).2]
          exact Token.Follows.leadingSpace ih
      | term =>
          obtain ⟨t, -, htoken⟩ := termText_of_read? h
          rw [htoken]
          exact ih
      | trailingSpace =>
          rw [(spaces_of_space? h).2]
          exact Token.Follows.trailingSpace ih
      | operator =>
          obtain ⟨op, rest, -, rfl⟩ := Reader.operator?_eq_some_iff.1 h
          exact ih

/-! ## §2. The scan goes on behind an accepted text. -/

/-- **A scan that ends behind a term is looking for an operator**, or for the
spaces in front of one. -/
theorem after_of_endsInTerm (slot : Slot) (source : List Char) :
    (run slot source).rest = [] → EndsInTerm slot (run slot source).tokens →
      slot.after (run slot source).steps.length = .trailingSpace ∨
        slot.after (run slot source).steps.length = .operator := by
  -- The slot is counted along with the rounds, so the statement is kept by every round.
  induction slot, source using run_induct with
  | usedUp slot =>
      rw [run_nil]
      intro _ hend
      exact hend.of_nil
  | stuck slot source hs h =>
      rw [run_of_none h]
      intro hrest
      exact absurd hrest hs
  | round slot source m hs h ih =>
      rw [tokens_run_of_some hs h, run_of_some hs h]
      intro hrest hend
      exact ih hrest (endsInTerm_next h hend)

/-- In front of a sign, a scan that looks for an operator finds it and begins
anew. -/
theorem run_operatorSign {slot : Slot} (h : slot = .trailingSpace ∨ slot = .operator)
    (op : Operator) (back : List Char) :
    (run slot (operatorSign op :: back)).tokens = .operator op :: (ofText back).tokens ∧
      (run slot (operatorSign op :: back)).rest = (ofText back).rest := by
  have hne : operatorSign op :: back ≠ [] := List.cons_ne_nil _ _
  have hread : Slot.operator.pattern.read? (operatorSign op :: back)
      = some ⟨[operatorSign op], some (.operator op), back⟩ :=
    Reader.operator?_eq_some_iff.2 ⟨op, back, rfl, rfl⟩
  have hoperator : (run .operator (operatorSign op :: back)).tokens
        = .operator op :: (ofText back).tokens ∧
      (run .operator (operatorSign op :: back)).rest = (ofText back).rest :=
    ⟨tokens_run_of_some hne hread, rest_run_of_some hne hread⟩
  rcases h with rfl | rfl
  · -- The slot for spaces passes the sign on.
    have hspace := Slot.trailingSpace.read?_operatorSign rfl op back
    rw [tokens_run_of_some hne hspace, rest_run_of_some hne hspace]
    exact hoperator
  · exact hoperator

end Scan

namespace Expression

/-- The scan of an accepted text, an operator and another text. -/
theorem ofText_append {front : List Char} {e : Expression} (h : ofChars front = .ok e)
    (op : Operator) (back : List Char) :
    (Scan.ofText (front ++ operatorSign op :: back)).tokens
        = (Scan.ofText front).tokens ++ .operator op :: (Scan.ofText back).tokens ∧
      (Scan.ofText (front ++ operatorSign op :: back)).rest = (Scan.ofText back).rest := by
  obtain ⟨hrest, hend, -⟩ := ofChars_eq_ok_iff.1 h
  have hafter := Scan.after_of_endsInTerm .leadingSpace front hrest hend
  obtain ⟨htokens, hback⟩ := Scan.run_operatorSign hafter op back
  -- The sign is a barrier, so the front is scanned as if it stood alone.
  have hrun : Scan.ofText (front ++ operatorSign op :: back)
      = (Scan.ofText front).followedBy .leadingSpace (operatorSign op :: back) :=
    Scan.run_append (Barrier.operatorSign op back) .leadingSpace front
  rw [hrun, Scan.followedBy_of_used hrest]
  refine ⟨?_, hback⟩
  rw [← htokens]
  exact List.filterMap_append

/-! ## §3. The outcome. -/

/-- An expression, an operator, and another expression. -/
def join (e : Expression) (op : Operator) (e' : Expression) : Expression :=
  ⟨e.terms ++ e'.terms.modifyHead op.apply⟩

/-- What becomes of a text behind an expression and an operator, `front` bytes
into the whole. -/
def behind (e : Expression) (op : Operator) (front : Nat) :
    Except ParseError Expression → Except ParseError Expression
  | .ok e' => .ok (e.join op e')
  | .error .empty => .error .trailingOperator
  | .error .trailingOperator => .error .trailingOperator
  | .error (.unreadable position excerpt) => .error (.unreadable (front + position) excerpt)

/-- The outcome of the tokens of an expression, an operator and more tokens. -/
theorem ofTokens_append {front back : List Token} {e : Expression}
    (h : ofTokens front = .ok e) (hback : Token.Follows .leadingSpace back) (op : Operator)
    (bytes : Nat) :
    ofTokens (front ++ .operator op :: back) = behind e op bytes (ofTokens back) := by
  obtain ⟨-, rfl⟩ := ofTokens_eq_ok_iff.1 h
  -- The right part has the last word, and without one the operator has it.
  have hlast : (front ++ Token.operator op :: back).getLast?
      = some (back.getLast?.getD (.operator op)) := by
    rw [List.getLast?_append, List.getLast?_cons]
    rfl
  unfold ofTokens
  rw [hlast]
  cases back.getLast? with
  | none => rfl
  | some token =>
      cases token with
      | operator op' => rfl
      | term t =>
          -- The operator takes effect on the right part alone, and on its first term.
          show Except.ok (Expression.mk _) = Except.ok (Expression.mk _)
          rw [Token.signedTerms_append, Token.signedTerms_of_follows hback op]

end Expression

/-- A text in front of the source moves the position of an error, and nothing
else about it. -/
theorem ParseError.unreadableAt_append (front : List Char) {source rest : List Char}
    (h : Utf8.size rest ≤ Utf8.size source) :
    unreadableAt (front ++ source) rest
      = .unreadable (Utf8.size front + (Utf8.size source - Utf8.size rest))
          (String.ofList (rest.take excerptLength)) := by
  unfold unreadableAt
  rw [Utf8.size_append, Nat.add_sub_assoc h]

namespace Expression

/-- **Behind an accepted text and an operator, a text is read as if it stood
alone.** -/
theorem ofChars_append_operator {front : List Char} {e : Expression}
    (h : ofChars front = .ok e) (op : Operator) (back : List Char) :
    ofChars (front ++ operatorSign op :: back)
      = behind e op (Utf8.size front + 1) (ofChars back) := by
  obtain ⟨htokens, hrest⟩ := ofText_append h op back
  -- The right part is used up or stuck, and the whole is just the same.
  by_cases hback : (Scan.ofText back).rest = []
  · have hfront : (Scan.ofText front).rest = [] := (ofChars_eq_ok_iff.1 h).1
    rw [ofChars_of_used hfront] at h
    rw [ofChars_of_used hback, ofChars_of_used (hrest.trans hback), htokens]
    exact ofTokens_append h (Scan.follows_tokens .leadingSpace back) op _
  · have hboth : (Scan.ofText (front ++ operatorSign op :: back)).rest ≠ [] := by
      rw [hrest]
      exact hback
    -- What is left behind the front is left in the whole, so only the
    -- position moves.
    have hsize : Utf8.size (Scan.ofText back).rest ≤ Utf8.size back := by
      have hsplit := congrArg Utf8.size (Scan.text_append_rest .leadingSpace back)
      rw [Utf8.size_append] at hsplit
      exact hsplit ▸ Nat.le_add_left _ _
    have hsign : Utf8.size [operatorSign op] = 1 := by
      cases op with
      | add => rfl
      | sub => rfl
    rw [ofChars_of_stuck hback, ofChars_of_stuck hboth, hrest, List.append_cons,
      ParseError.unreadableAt_append _ hsize, Utf8.size_append, hsign]
    rfl

/-- The same for strings, whose bytes are counted. -/
theorem parse_append_sign {front : String} {e : Expression} (h : parse front = .ok e)
    (op : Operator) (back : String) :
    parse (front ++ String.singleton (operatorSign op) ++ back)
      = behind e op (front.utf8ByteSize + 1) (parse back) := by
  unfold parse
  rw [String.toList_append, String.toList_append, String.toList_singleton, List.append_assoc,
    ← Utf8.size_toList]
  exact ofChars_append_operator h op back.toList

/-- **PARSING IS COMPOSITIONAL AT AN OPERATOR**: behind an accepted text and a
sign, another expression adds its terms, the first one turned by a minus; a
text that breaks off leaves the operator trailing; and an error keeps its
excerpt and moves by the bytes in front of it. -/
theorem parse_append_operator {front back : String} {e : Expression}
    (h : parse front = .ok e) :
    (∀ e', parse back = .ok e' →
      parse (front ++ "+" ++ back) = .ok ⟨e.terms ++ e'.terms⟩ ∧
        parse (front ++ "-" ++ back) = .ok ⟨e.terms ++ e'.terms.modifyHead Term.negate⟩) ∧
      ∀ sign, sign = "+" ∨ sign = "-" →
        (parse back = .error .empty ∨ parse back = .error .trailingOperator →
          parse (front ++ sign ++ back) = .error .trailingOperator) ∧
        ∀ position excerpt, parse back = .error (.unreadable position excerpt) →
          parse (front ++ sign ++ back)
            = .error (.unreadable (front.utf8ByteSize + 1 + position) excerpt) := by
  have hadd : parse (front ++ "+" ++ back) = behind e .add _ (parse back) :=
    parse_append_sign h .add back
  have hsub : parse (front ++ "-" ++ back) = behind e .sub _ (parse back) :=
    parse_append_sign h .sub back
  refine ⟨?_, ?_⟩
  · intro e' he'
    rw [hadd, hsub, he']
    refine ⟨?_, rfl⟩
    -- A plus turns nothing.
    have hid : e'.terms.modifyHead (Operator.apply .add) = e'.terms := by
      cases e'.terms with
      | nil => rfl
      | cons t ts => rfl
    show Except.ok (Expression.mk (e.terms ++ e'.terms.modifyHead (Operator.apply .add))) = _
    rw [hid]
  · intro sign hsign
    have hboth : ∃ op, parse (front ++ sign ++ back)
        = behind e op (front.utf8ByteSize + 1) (parse back) := by
      rcases hsign with rfl | rfl
      · exact ⟨.add, hadd⟩
      · exact ⟨.sub, hsub⟩
    obtain ⟨op, hop⟩ := hboth
    rw [hop]
    refine ⟨?_, ?_⟩
    · rintro (hb | hb)
      · rw [hb]
        rfl
      · rw [hb]
        rfl
    · intro position excerpt hb
      rw [hb]
      rfl

/-- The four outcomes behind `2d6 `, which leaves the scan behind a space. -/
theorem parse_two_dice_append :
    parse "2d6 " = .ok ⟨[.dice ⟨2, 6, .positive⟩]⟩ ∧
      parse ("2d6 " ++ "-" ++ "1-d4")
        = .ok ⟨[.dice ⟨2, 6, .positive⟩, .constant ⟨-1⟩, .dice ⟨1, 4, .negative⟩]⟩ ∧
      parse ("2d6 " ++ "+" ++ " ") = .error .trailingOperator ∧
      parse ("2d6 " ++ "-" ++ "3+") = .error .trailingOperator ∧
      parse ("2d6 " ++ "+" ++ "5 €") = .error (.unreadable 7 "€") := by
  have h : parse "2d6 " = .ok ⟨[.dice ⟨2, 6, .positive⟩]⟩ := by decide +kernel
  have hok : parse "1-d4" = .ok ⟨[.constant ⟨1⟩, .dice ⟨1, 4, .negative⟩]⟩ := by decide +kernel
  have hempty : parse " " = .error .empty := by decide +kernel
  have htrailing : parse "3+" = .error .trailingOperator := by decide +kernel
  have hstuck : parse "5 €" = .error (.unreadable 2 "€") := by decide +kernel
  refine ⟨h, ?_, ?_, ?_, ?_⟩
  · exact ((parse_append_operator h).1 _ hok).2
  · exact ((parse_append_operator h).2 "+" (.inl rfl)).1 (.inl hempty)
  · exact ((parse_append_operator h).2 "-" (.inr rfl)).1 (.inr htrailing)
  · exact ((parse_append_operator h).2 "+" (.inl rfl)).2 2 "€" hstuck

end Expression

end TabletopDice
