/-
  TabletopDice.Proofs.Grammar.Acceptance
  ──────────────────────────────────────
  **THE PARSER ACCEPTS THE GRAMMAR, AND NOTHING ELSE.**

  The grammar says what an expression looks like from left to right and knows
  no slots; the scan knows slots and no expressions.  `SpelledFrom` says what
  has to stand in front of a scan that is in a given slot, and

    • `spelledFrom_run` — a scan that uses its text up and does not end behind
      an operator has read such a text (soundness, along the scan),
    • `reads_of_tail` — the scan uses up every such text (completeness, along
      the grammar).

  Both follow the signs too: a term takes the operator read last before it,
  and a tail always begins with an operator of its own, so what stood in front
  of the tail has no say in it.
-/
import TabletopDice.Expression.Parse
import TabletopDice.Proofs.Grammar.Term

namespace TabletopDice

open Grammar

/-! ## §1. Texts in front of a slot. -/

namespace Grammar

/-- What stands in front of a scan that is in a slot, when the scan is to use
it up behind a term: `op` is the operator read last, and `ts` are the terms
still to come. -/
def SpelledFrom : Slot → List Char → Operator → List Term → Prop
  | .leadingSpace, source, op, ts =>
      ∃ spaces text rest t more, Spaces spaces ∧ TermText text t ∧ Tail rest more ∧
        source = spaces ++ (text ++ rest) ∧ ts = op.apply t :: more
  | .term, source, op, ts =>
      ∃ text rest t more, TermText text t ∧ Tail rest more ∧
        source = text ++ rest ∧ ts = op.apply t :: more
  | .trailingSpace, source, _, ts => Tail source ts
  | .operator, source, _, ts => ∀ spaces, Spaces spaces → Tail (spaces ++ source) ts

/-- The tokens still to come leave the scan behind a term. -/
def EndsInTerm : Slot → List Token → Prop
  | .leadingSpace, tokens => ∃ t, tokens.getLast? = some (.term t)
  | .term, tokens => ∃ t, tokens.getLast? = some (.term t)
  | .trailingSpace, tokens => ∀ op, tokens.getLast? ≠ some (.operator op)
  | .operator, tokens => ∀ op, tokens.getLast? ≠ some (.operator op)

/-- No token is still to come only where a term came last. -/
theorem EndsInTerm.of_nil {slot : Slot} (h : EndsInTerm slot []) :
    slot = .trailingSpace ∨ slot = .operator := by
  cases slot with
  | leadingSpace =>
      obtain ⟨t, ht⟩ := h
      cases ht
  | term =>
      obtain ⟨t, ht⟩ := h
      cases ht
  | trailingSpace => exact .inl rfl
  | operator => exact .inr rfl

/-- Behind a term the tokens still to come end in a term, or there are none. -/
theorem EndsInTerm.of_term_cons {t : Term} {tokens : List Token}
    (h : EndsInTerm .term (.term t :: tokens)) : EndsInTerm .trailingSpace tokens := by
  obtain ⟨u, hu⟩ := h
  intro op hop
  rw [List.getLast?_cons, hop] at hu
  cases hu

/-- Behind an operator a term has to come yet. -/
theorem EndsInTerm.of_operator_cons {op : Operator} {tokens : List Token}
    (h : EndsInTerm .operator (.operator op :: tokens)) : EndsInTerm .leadingSpace tokens := by
  show ∃ t, tokens.getLast? = some (.term t)
  -- Were there no token, or an operator last, the whole would end in an operator.
  cases hlast : tokens.getLast? with
  | none =>
      refine absurd ?_ (h op)
      rw [List.getLast?_cons, hlast]
      rfl
  | some token =>
      cases token with
      | term t => exact ⟨t, rfl⟩
      | operator op' =>
          refine absurd ?_ (h op')
          rw [List.getLast?_cons, hlast]
          rfl

end Grammar

/-! ## §2. What is accepted is in the grammar. -/

/-- Every leading run of spaces is a run of spaces. -/
theorem Grammar.spaces_of_space? {source : List Char} {m : Match}
    (h : Reader.space? source = some m) : Spaces m.text ∧ m.token = none := by
  cases h
  refine ⟨?_, rfl⟩
  intro c hc
  exact of_decide_eq_true (List.all_eq_true.1 List.all_takeWhile c hc)

/-- **One round later there is still a term to end with**: spaces leave no
token, and a term or an operator only changes what may come last. -/
theorem Grammar.endsInTerm_next {slot : Slot} {source : List Char} {m : Match}
    {tokens : List Token} (h : slot.pattern.read? source = some m)
    (hend : EndsInTerm slot (m.token.toList ++ tokens)) : EndsInTerm slot.next tokens := by
  -- The slots for spaces pass everything on; the other two use one token up.
  cases slot with
  | leadingSpace =>
      rw [(spaces_of_space? h).2] at hend
      exact hend
  | term =>
      obtain ⟨t, -, htoken⟩ := termText_of_read? h
      rw [htoken] at hend
      exact hend.of_term_cons
  | trailingSpace =>
      rw [(spaces_of_space? h).2] at hend
      exact hend
  | operator =>
      obtain ⟨op, rest, -, rfl⟩ := Reader.operator?_eq_some_iff.1 h
      exact hend.of_operator_cons

/-- **A scan that uses its text up behind a term has read a text of the
grammar**, with the operator `op` in front of it. -/
theorem Scan.spelledFrom_run (slot : Slot) (source : List Char) :
    (run slot source).rest = [] → EndsInTerm slot (run slot source).tokens →
      ∀ op, SpelledFrom slot source op (Token.signedTerms op (run slot source).tokens) := by
  -- Along the scan, for every operator that may have been read before the slot.
  induction slot, source using run_induct with
  | usedUp slot =>
      rw [run_nil]
      intro _ hend op
      -- Nothing is left, and the scan may end here: an empty tail, or a tail of the
      -- spaces in front.
      rcases hend.of_nil with rfl | rfl
      · exact .done (fun c hc => by cases hc)
      · intro spaces hspaces
        rw [List.append_nil]
        exact .done hspaces
  | stuck slot source hs h =>
      rw [run_of_none h]
      intro hrest
      exact absurd hrest hs
  | round slot source m hs h ih =>
      rw [rest_run_of_some hs h, tokens_run_of_some hs h]
      intro hrest hend op
      have hsplit := Pattern.read?_append h
      have hnext := ih hrest (endsInTerm_next h hend)
      -- What the next slot leaves to be read, the piece of this one completes.
      cases slot with
      | leadingSpace =>
          obtain ⟨hspaces, htoken⟩ := spaces_of_space? h
          obtain ⟨text, rest, t, more, htext, htail, hsource, hts⟩ := hnext op
          rw [htoken]
          exact ⟨m.text, text, rest, t, more, hspaces, htext, htail,
            by rw [← hsource, hsplit], hts⟩
      | term =>
          obtain ⟨t, htext, htoken⟩ := termText_of_read? h
          rw [htoken]
          exact ⟨m.text, m.rest, t, _, htext, hnext op, hsplit.symm, rfl⟩
      | trailingSpace =>
          obtain ⟨hspaces, htoken⟩ := spaces_of_space? h
          have htail := hnext op m.text hspaces
          rw [hsplit] at htail
          rw [htoken]
          exact htail
      | operator =>
          obtain ⟨op', rest, rfl, rfl⟩ := Reader.operator?_eq_some_iff.1 h
          -- The new operator takes the place of the one read before it.
          obtain ⟨after, text, rest', t, more, hafter, htext, htail, hsource, hts⟩ :=
            hnext op'
          intro before hbefore
          show Tail (before ++ operatorSign op' :: rest)
            (Token.signedTerms op' (run .leadingSpace rest).tokens)
          rw [show Token.signedTerms op' (run .leadingSpace rest).tokens = _ from hts]
          subst hsource
          exact .more hbefore hafter htext htail

/-- **Soundness**: an accepted text spells its expression, the first term behind an
implied plus. -/
theorem Expression.spells_of_ofChars {source : List Char} {e : Expression}
    (h : ofChars source = .ok e) : Spells source e := by
  obtain ⟨hrest, hend, rfl⟩ := ofChars_eq_ok_iff.1 h
  obtain ⟨spaces, text, rest, t, more, hspaces, htext, htail, rfl, hts⟩ :=
    Scan.spelledFrom_run .leadingSpace source hrest hend .add
  show Spells _ ⟨Token.signedTerms .add (Scan.run .leadingSpace _).tokens⟩
  rw [hts]
  exact .intro hspaces htext htail

/-! ## §3. What is in the grammar is accepted. -/

/-- **A slot for spaces takes all the spaces in front**, be there any or not. -/
theorem Slot.read?_spaces (slot : Slot) (hslot : slot.pattern = .leaf .space)
    {spaces source : List Char} (hspaces : Spaces spaces) (hclear : Clear (· = ' ') source) :
    slot.pattern.read? (spaces ++ source) = some ⟨spaces, none, source⟩ := by
  have hall : ∀ c ∈ spaces, decide (c = ' ') = true := fun c hc => decide_eq_true (hspaces c hc)
  rw [hslot]
  show some (Match.mk _ _ _) = _
  -- The run of spaces ends with the spaces, since no space stands behind them.
  rw [hclear.takeWhile_append, hclear.dropWhile_append,
    List.takeWhile_eq_self_iff.2 hall, List.dropWhile_eq_nil_iff.2 hall]
  rfl

namespace Scan

/-- The scan from a slot uses the text up, and these are its tokens. -/
def Reads (slot : Slot) (source : List Char) (tokens : List Token) : Prop :=
  (run slot source).rest = [] ∧ (run slot source).tokens = tokens

namespace Reads

/-- Nothing is left to read. -/
theorem nil (slot : Slot) : Reads slot [] [] := by
  unfold Reads
  rw [run_nil]
  exact ⟨rfl, rfl⟩

/-- One round in front of a scan that uses the rest up. -/
theorem round {slot : Slot} {source : List Char} {m : Match} {tokens : List Token}
    (hs : source ≠ []) (h : slot.pattern.read? source = some m)
    (hnext : Reads slot.next m.rest tokens) : Reads slot source (m.token.toList ++ tokens) := by
  unfold Reads
  rw [rest_run_of_some hs h, tokens_run_of_some hs h, hnext.2]
  exact ⟨hnext.1, rfl⟩

/-- Spaces are passed over in both slots that look for them. -/
theorem spaces (slot : Slot) (hslot : slot.pattern = .leaf .space) {spaces source : List Char}
    {tokens : List Token} (hspaces : Spaces spaces) (hclear : Clear (· = ' ') source)
    (hnext : Reads slot.next source tokens) : Reads slot (spaces ++ source) tokens := by
  -- At the end of the text there is no slot left to look for spaces.
  by_cases hs : spaces ++ source = []
  · obtain ⟨rfl, rfl⟩ := List.append_eq_nil_iff.1 hs
    have htokens := hnext.2
    rw [run_nil] at htokens
    subst htokens
    exact nil slot
  · exact round hs (slot.read?_spaces hslot hspaces hclear) hnext

/-- A term is read, if what follows cannot be taken for more of it. -/
theorem term {text rest : List Char} {t : Term} {tokens : List Token} (h : TermText text t)
    (hclear : Clear Reader.inTerm rest) (hnext : Reads .trailingSpace rest tokens) :
    Reads .term (text ++ rest) (.term t :: tokens) := by
  have hread := read?_of_termText h
  have hne : text ≠ [] := Pattern.text_ne_nil_of_read? hread (by decide)
  -- Read alone the term is taken whole, and the clear rest changes nothing in that.
  have hboth : Slot.term.pattern.read? (text ++ rest) = some ⟨text, some (.term t), rest⟩ := by
    rw [Slot.term.read?_append hne hclear, hread]
    rfl
  exact round (List.append_ne_nil_of_left_ne_nil hne rest) hboth hnext

/-- An operator is read, and then a term is looked for. -/
theorem operator {rest : List Char} {tokens : List Token} (op : Operator)
    (hnext : Reads .leadingSpace rest tokens) :
    Reads .operator (operatorSign op :: rest) (.operator op :: tokens) := by
  have hread : Slot.operator.pattern.read? (operatorSign op :: rest)
      = some ⟨[operatorSign op], some (.operator op), rest⟩ :=
    Reader.operator?_eq_some_iff.2 ⟨op, rest, rfl, rfl⟩
  exact round (List.cons_ne_nil _ _) hread hnext

end Reads

end Scan

namespace Grammar

/-- No term goes on in spaces. -/
theorem Spaces.clear_inTerm {text : List Char} (h : Spaces text) :
    Clear Reader.inTerm text := by
  intro c hc
  rw [h c (List.mem_of_mem_head? hc)]
  decide

/-- A term begins with a digit or the letter of a group. -/
theorem TermText.clear_space {text : List Char} {t : Term} (h : TermText text t)
    (rest : List Char) : Clear (· = ' ') (text ++ rest) := by
  have hread := read?_of_termText h
  have hne : text ≠ [] := Pattern.text_ne_nil_of_read? hread (by decide)
  obtain ⟨c, text, rfl⟩ := List.exists_cons_of_ne_nil hne
  rw [List.cons_append, Clear.cons_iff]
  -- A space in front would leave the term slot without a piece.
  refine decide_eq_false ?_
  rintro rfl
  have hnone : Slot.term.pattern.read? (' ' :: text) = none := rfl
  rw [hnone] at hread
  cases hread

/-- What follows a term cannot be taken for more of it. -/
theorem Tail.clear_inTerm {rest : List Char} {ts : List Term} (h : Tail rest ts) :
    Clear Reader.inTerm rest := by
  cases h with
  | done hspaces => exact hspaces.clear_inTerm
  | @more before after text rest op t ts hbefore _ _ _ =>
      -- The tail begins with a space or, without any, with its sign.
      cases before with
      | nil => exact Barrier.operatorSign op _ .term
      | cons c before => exact (Clear.cons_iff.2 (Clear.cons_iff.1 hbefore.clear_inTerm))

/-- **The scan uses up every tail**, and the terms it finds are those of the
tail, whatever operator was read before. -/
theorem reads_of_tail {rest : List Char} {ts : List Term} (h : Tail rest ts) :
    ∃ tokens, Scan.Reads .trailingSpace rest tokens ∧ EndsInTerm .trailingSpace tokens ∧
      ∀ op, Token.signedTerms op tokens = ts := by
  -- Along the grammar.  The statement for every `op` is what lets the operator
  -- of this tail take over from whatever was read in front of it.
  induction h with
  | @done spaces hspaces =>
      refine ⟨[], ?_, ?_, fun _ => rfl⟩
      · rw [← List.append_nil spaces]
        exact .spaces .trailingSpace rfl hspaces (Clear.nil _) (.nil _)
      · intro op hop
        cases hop
  | @more before after text rest op t ts hbefore hafter htext htail ih =>
      obtain ⟨tokens, hreads, hend, hts⟩ := ih
      refine ⟨.operator op :: .term t :: tokens, ?_, ?_, ?_⟩
      · -- Four slots, from the last to the first.
        have hterm := Scan.Reads.term htext htail.clear_inTerm hreads
        have hlead := Scan.Reads.spaces .leadingSpace rfl hafter (htext.clear_space rest) hterm
        have hsign := Barrier.operatorSign op (after ++ (text ++ rest)) .trailingSpace
        exact .spaces .trailingSpace rfl hbefore hsign (.operator op hlead)
      · intro op' hop'
        rw [List.getLast?_cons, List.getLast?_cons] at hop'
        cases hlast : tokens.getLast? with
        | none =>
            rw [hlast] at hop'
            cases hop'
        | some token =>
            rw [hlast] at hop'
            cases hop'
            exact hend op' hlast
      · intro _
        show op.apply t :: Token.signedTerms op tokens = _
        rw [hts]

end Grammar

/-- **Completeness**: what spells an expression is accepted, as this expression. -/
theorem Expression.ofChars_of_spells {source : List Char} {e : Expression}
    (h : Spells source e) : ofChars source = .ok e := by
  cases h with
  | @intro spaces text rest t ts hspaces htext htail =>
      obtain ⟨tokens, hreads, hend, hts⟩ := reads_of_tail htail
      have hterm := Scan.Reads.term htext htail.clear_inTerm hreads
      obtain ⟨hrest, htokens⟩ := Scan.Reads.spaces .leadingSpace rfl hspaces
        (htext.clear_space rest) hterm
      refine ofChars_eq_ok_iff.2 ⟨hrest, ?_, ?_⟩
      · show ∃ u, (Scan.run .leadingSpace _).tokens.getLast? = some (.term u)
        rw [htokens, List.getLast?_cons]
        -- The last token is one of the tail, or the first term if the tail has none.
        cases hlast : tokens.getLast? with
        | none => exact ⟨t, rfl⟩
        | some token =>
            cases token with
            | term u => exact ⟨u, rfl⟩
            | operator op => exact absurd hlast (hend op)
      · show _ = Expression.mk (Token.signedTerms .add (Scan.run .leadingSpace _).tokens)
        rw [htokens]
        show _ = Expression.mk (t :: Token.signedTerms .add tokens)
        rw [hts]

/-! ## §4. The two together. -/

namespace Expression

/-- The two directions, for a list of characters. -/
theorem ofChars_iff_spells {source : List Char} {e : Expression} :
    ofChars source = .ok e ↔ Spells source e :=
  ⟨spells_of_ofChars, ofChars_of_spells⟩

/-- **THE PARSER ACCEPTS EXACTLY THE GRAMMAR, with its meaning**; in
particular a text spells one expression at most, however it is taken apart. -/
theorem parse_eq_ok_iff_spells (source : String) :
    (∀ e, parse source = .ok e ↔ Spells source.toList e) ∧
      ∀ e e', Spells source.toList e → Spells source.toList e' → e = e' := by
  refine ⟨fun e => ofChars_iff_spells, ?_⟩
  intro e e' he he'
  -- Both expressions are the one outcome of the parser.
  have hok := ofChars_of_spells he
  rw [ofChars_of_spells he'] at hok
  injection hok with hok
  exact hok.symm

example :
    parse " d% -  2+10D6"
      = .ok ⟨[.dice ⟨1, 100, .positive⟩, .constant ⟨-2⟩, .dice ⟨10, 6, .positive⟩]⟩ := by cbv

end Expression

end TabletopDice
