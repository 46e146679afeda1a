/-
  TabletopDice.Proofs.Session.Invariant
  ──────────────────────────────────────
  **WHAT A SESSION STORES STAYS VALID**, whatever is asked of it and in
  whatever order.

  A session is valid when its expressions have a notation, its pieces keep to
  the limits and its rolls are exact rolls of expressions that have a
  notation.  No command looks behind that: it reads valid values, and what it
  stores was read from a text, brought within the limits, negated or rolled.

    • `Session.step_valid` — one command keeps a session valid,
    • `Session.step_answersRight` — and answers by what was stored,
    • `Session.step_of_run`, `Session.valid_of_run` — so does any run, and each
      of its commands is carried out on a valid session.
-/
import TabletopDice.Proofs.Roll.Exactness
import TabletopDice.Session.Basic

namespace TabletopDice

/-! ## §1. Tables. -/

namespace Table

variable {α : Type} {P : α → Prop}

/-- Every stored value has the property. -/
def All (P : α → Prop) (t : Table α) : Prop :=
  ∀ name value, t.get? name = some value → P value

theorem all_empty : (empty : Table α).All P := by
  intro name value h
  rw [get?_empty] at h
  cases h

/-- A table goes on having the property when the stored value has it. -/
theorem All.put {t : Table α} (h : t.All P) (name : String) {value : α} (hvalue : P value) :
    (t.put name value).All P := by
  intro other found hfound
  by_cases hname : other = name
  · rw [hname, get?_put_self] at hfound
    cases hfound
    exact hvalue
  · rw [get?_put_of_ne t value hname] at hfound
    exact h other found hfound

end Table

/-! ## §2. Pieces. -/

/-- **What a piece may be**: a group within the limits, or a constant no
farther from zero than the largest number.  A piece may be zero, which no
notation can say. -/
def Term.WithinReach : Term → Prop
  | .dice d => d.WithinLimits
  | .constant c => c.value.toInt.natAbs ≤ Reader.maxNumber

theorem le_max_lowest (lo n : UInt32) : lo ≤ max lo n := by
  have hmax : max lo n = if lo ≤ n then n else lo := rfl
  rw [hmax]
  split
  · assumption
  · exact UInt32.le_refl lo

theorem max_min_le_highest {lo hi : UInt32} (h : lo ≤ hi) (n : UInt32) :
    max lo (min n hi) ≤ hi := by
  have hmin : min n hi = if n ≤ hi then n else hi := rfl
  have hmax : max lo (min n hi) = if lo ≤ min n hi then min n hi else lo := rfl
  simp only [UInt32.le_iff_toNat_le] at h hmin hmax ⊢
  grind

/-- **A group brought within the limits is within them.** -/
theorem Dice.withinLimits_clamped (count sides : UInt32) : (clamped count sides).WithinLimits :=
  ⟨le_max_lowest _ _, max_min_le_highest (by decide) count, le_max_lowest _ _⟩

namespace Term

/-- A term of a notation may be a piece. -/
theorem WithinLimits.withinReach {t : Term} (h : t.WithinLimits) : t.WithinReach := by
  cases t with
  | dice d => exact h
  | constant c =>
      obtain ⟨-, hlt⟩ := (h : c.WithinLimits)
      exact Nat.le_pred_of_lt hlt

/-- **Every number can be the constant of a piece**, zero among them. -/
theorem withinReach_ofUInt32 (n : UInt32) : (constant (.ofUInt32 n)).WithinReach := by
  have hlt : n.toNat < UInt32.size := n.toNat_lt
  have hmax : Reader.maxNumber = UInt32.size - 1 := rfl
  show (Constant.ofUInt32 n).value.toInt.natAbs ≤ Reader.maxNumber
  rw [Constant.toInt_ofUInt32]
  omega

/-- A piece may be negated: its distance from zero stays. -/
theorem WithinReach.negate {t : Term} (h : t.WithinReach) : t.negate.WithinReach := by
  cases t with
  | dice d => exact h
  | constant c =>
      have hc : c.value.toInt.natAbs ≤ Reader.maxNumber := h
      have hhi : 0 ≤ Int64.maxValue.toInt := by decide
      show c.negate.value.toInt.natAbs ≤ Reader.maxNumber
      rw [Constant.toInt_negate]
      omega

/-- **Every roll of a term within reach keeps to the bounds of the term.** -/
theorem WithinReach.withinBounds_of_roll {σ : Type} [WordSource σ] {t : Term}
    (ht : t.WithinReach) {patience : Nat} {source rest : σ} {p : Part}
    (h : t.roll patience source = some (p, rest)) : p.term = t ∧ p.WithinBounds := by
  obtain ⟨shown, hdraws, rfl⟩ := draws_of_roll h
  refine ⟨part_term t shown, withinBounds_part (fun d hd => ?_) hdraws.shows⟩
  -- Only dice need their limits; a constant is both of its bounds.
  rw [hd] at ht
  exact ht

end Term

/-- A valid piece, of whatever kind, is a term within reach. -/
def Piece.Valid (p : Piece) : Prop := p.toTerm.WithinReach

theorem Piece.Valid.negate {p : Piece} (h : p.Valid) : p.negate.Valid := by
  show p.negate.toTerm.WithinReach
  rw [toTerm_negate]
  exact Term.WithinReach.negate h

/-! ## §3. Replies. -/

namespace Session

variable {σ : Type}

/-- **The reply, if there is one, is as wanted**, the answer and the session
after it. -/
def Meets (want : Answer → Session σ → Prop) (reply : Reply σ) : Prop :=
  ∀ a after, reply = some (a, after) → want a after

variable {s : Session σ} {want : Answer → Session σ → Prop}

theorem meets_some {a : Answer} {after : Session σ} (h : want a after) :
    Meets want (some (a, after)) := by
  intro a' after' heq
  cases heq
  exact h

/-- **A name is looked up**: the reply is for the stored value, or says that there is none. -/
theorem meets_reading {α : Type} {table : Table α} {name : String} {go : α → Reply σ}
    (hmissing : table.get? name = none → want .missing s)
    (hgo : ∀ value, table.get? name = some value → Meets want (go value)) :
    Meets want (s.reading table name go) := by
  unfold reading
  cases hget : table.get? name with
  | none => exact meets_some (hmissing hget)
  | some value => exact hgo value hget

/-- Nothing is missing where a value is stored. -/
theorem meets_reading_stored {α : Type} {table : Table α} {name : String} {go : α → Reply σ}
    {wanted : α → Answer → Prop}
    (hgo : ∀ value, table.get? name = some value → Meets (fun a _ => wanted value a) (go value)) :
    Meets (fun a _ => ∀ value, table.get? name = some value → wanted value a)
      (s.reading table name go) := by
  -- A table has one value for a name, so what is looked up is what was asked about.
  refine meets_reading (fun hmissing value hget => ?_) fun value hget a after hreply => ?_
  · rw [hmissing] at hget
    cases hget
  · intro other hother
    rw [hget] at hother
    cases hother
    exact hgo value hget a after hreply

/-- **A text is read**: the reply is for its expression, or tells the error. -/
theorem meets_parsing {text : String} {go : Expression → Reply σ}
    (hrejected : ∀ error, Expression.parse text = .error error → want (.rejected error) s)
    (hgo : ∀ e, Expression.parse text = .ok e → Meets want (go e)) :
    Meets want (s.parsing text go) := by
  unfold parsing
  cases hparse : Expression.parse text with
  | error error => exact meets_some (hrejected error hparse)
  | ok e => exact hgo e hparse

/-- **Something is rolled**: the reply is for the outcome, over the source that it leaves. -/
theorem meets_rolling {α : Type} {roller : Roller (Tap σ) α} {go : Session σ → α → Reply σ}
    (hgo : ∀ outcome rest, roller s.source = some (outcome, rest) →
      Meets want (go { s with source := rest } outcome)) :
    Meets want (s.rolling roller go) := by
  unfold rolling
  -- Without enough patience there is no reply, and nothing to show.
  cases hroll : roller s.source with
  | none =>
      intro a after heq
      cases heq
  | some pair =>
      obtain ⟨outcome, rest⟩ := pair
      exact hgo outcome rest hroll

end Session

/-! ## §4. Rolls. -/

/-- **The roll was rolled from the expression**: over some state of a source,
with one exact part for each of its terms and in their order. -/
structure Roll.RolledFrom (σ : Type) [WordSource σ] (e : Expression) (r : Roll) : Prop where
  rolled : ∃ patience, ∃ source rest : Tap σ, e.roll patience source = some (r, rest)
  terms : r.terms = e.terms
  parts : ∀ p ∈ r.parts, p.Exact

variable {σ : Type} [WordSource σ]

/-- What a notation's expression rolls was rolled from it, part by part. -/
theorem Expression.WellFormed.rolledFrom {e : Expression} (he : e.WellFormed) {patience : Nat}
    {source rest : Tap σ} {r : Roll} (h : e.roll patience source = some (r, rest)) :
    r.RolledFrom σ e := by
  obtain ⟨-, -, hlimits⟩ := he
  obtain ⟨faces, hdraws, rfl⟩ := draws_of_roll h
  exact ⟨⟨patience, source, rest, h⟩, terms_deal e.terms faces,
    exact_of_mem_deal hlimits hdraws.shows⟩

/-- **A valid roll** comes from an expression that has a notation. -/
def Roll.Valid (σ : Type) [WordSource σ] (r : Roll) : Prop :=
  ∃ e : Expression, e.WellFormed ∧ r.RolledFrom σ e

/-! ## §5. Sessions. -/

namespace Session

/-- **The invariant**: every stored value is valid.  The source does not
matter. -/
structure Valid (s : Session σ) : Prop where
  expressions : s.expressions.All Expression.WellFormed
  rolls : s.rolls.All (Roll.Valid σ)
  pieces : s.pieces.All Piece.Valid

theorem valid_fresh (source : σ) : (fresh source).Valid where
  expressions := Table.all_empty
  rolls := Table.all_empty
  pieces := Table.all_empty

variable {s : Session σ}

theorem Valid.putSource (h : s.Valid) (source : Tap σ) : Valid { s with source := source } :=
  ⟨h.expressions, h.rolls, h.pieces⟩

theorem Valid.putExpression (h : s.Valid) (into : String) {e : Expression}
    (he : e.WellFormed) : Valid { s with expressions := s.expressions.put into e } :=
  ⟨h.expressions.put into he, h.rolls, h.pieces⟩

theorem Valid.putRoll (h : s.Valid) (into : String) {r : Roll} (hr : r.Valid σ) :
    Valid { s with rolls := s.rolls.put into r } :=
  ⟨h.expressions, h.rolls.put into hr, h.pieces⟩

theorem Valid.putPiece (h : s.Valid) (into : String) {p : Piece} (hp : p.Valid) :
    Valid { s with pieces := s.pieces.put into p } :=
  ⟨h.expressions, h.rolls, h.pieces.put into hp⟩

/-! ## §6. One command. -/

/-- The session is valid after the reply. -/
abbrev KeepsValid (reply : Reply σ) : Prop := Meets (fun _ after => after.Valid) reply

/-- Reading a table of valid values keeps the session valid if each value does. -/
theorem Valid.reading (h : s.Valid) {α : Type} {table : Table α} {P : α → Prop}
    (htable : table.All P) {name : String} {go : α → Reply σ}
    (hgo : ∀ value, P value → KeepsValid (go value)) : KeepsValid (s.reading table name go) :=
  meets_reading (fun _ => h) fun value hget => hgo value (htable name value hget)

/-- So does reading a text: what is accepted has a notation. -/
theorem Valid.parsing (h : s.Valid) {text : String} {go : Expression → Reply σ}
    (hgo : ∀ e : Expression, e.WellFormed → KeepsValid (go e)) :
    KeepsValid (s.parsing text go) :=
  meets_parsing (fun _ _ => h) fun e hparse => hgo e (Expression.wellFormed_of_parse hparse)

/-- A roll of an expression with a notation may be stored at once. -/
theorem Valid.rollInto (h : s.Valid) (patience : Nat) {e : Expression} (he : e.WellFormed)
    (into : String) : KeepsValid (s.rollInto patience e into) := by
  refine meets_rolling fun r rest hroll => meets_some ?_
  exact (h.putSource rest).putRoll into ⟨e, he, he.rolledFrom hroll⟩

/-- **ONE COMMAND KEEPS A SESSION VALID.** -/
theorem step_valid (h : s.Valid) (patience : Nat) (c : Command) :
    KeepsValid (step patience c s) := by
  -- Each command is a chain of readings that ends in storing one value; the invariant
  -- says what was read, and one lemma above says that it may be stored.
  cases c with
  | parse text into =>
      exact h.parsing fun e he => meets_some (h.putExpression into he)
  | «recall» of =>
      exact h.reading h.expressions fun e _ => meets_some h
  | reparse of into =>
      refine h.reading h.expressions fun e _ => h.parsing fun again hagain => ?_
      exact meets_some (h.putExpression into hagain)
  | roll of into =>
      exact h.reading h.expressions fun e he => h.rollInto patience he into
  | rollText text into =>
      exact h.parsing fun e he => h.rollInto patience he into
  | rollTotal of =>
      refine h.reading h.expressions fun e _ => meets_rolling fun r rest _ => ?_
      exact meets_some (h.putSource rest)
  | compare a b =>
      exact h.reading h.expressions fun _ _ => h.reading h.expressions fun _ _ => meets_some h
  | compareRolls a b =>
      exact h.reading h.rolls fun _ _ => h.reading h.rolls fun _ _ => meets_some h
  | makeDice count sides into =>
      exact meets_some (h.putPiece into (Dice.withinLimits_clamped count sides))
  | makeConstant value into =>
      exact meets_some (h.putPiece into (Term.withinReach_ofUInt32 value))
  | makeTerm of into =>
      exact h.reading h.pieces fun p hp => meets_some (h.putPiece into hp)
  | pick of index into =>
      refine h.reading h.expressions fun e he => ?_
      cases hterm : e.terms[index]? with
      | none => exact meets_some h
      | some t =>
          -- A term of a stored expression keeps to tighter limits than a piece.
          have ht : t.WithinLimits := he.2.2 t (List.mem_of_getElem? hterm)
          exact meets_some (h.putPiece into ht.withinReach)
  | negate of =>
      exact h.reading h.pieces fun p hp => meets_some (h.putPiece of hp.negate)
  | inspect of =>
      exact h.reading h.pieces fun p _ => meets_some h
  | compareTerms a b =>
      exact h.reading h.pieces fun _ _ => h.reading h.pieces fun _ _ => meets_some h
  | rollPiece of =>
      refine h.reading h.pieces fun p _ => meets_rolling fun part rest _ => ?_
      exact meets_some (h.putSource rest)

/-- **The answer is about what is stored**: an expression is told as it is
stored, its text reads back as the same expression, and a piece rolls within
its bounds. -/
def AnswersRight (s : Session σ) : Command → Answer → Prop
  | .recall of, a => ∀ e, s.expressions.get? of = some e → a = .expression e
  | .reparse of _, a => ∀ e, s.expressions.get? of = some e → a = .reparsed e.display true
  | .rollPiece of, a => ∀ p, s.pieces.get? of = some p →
      ∃ part drawn, a = .part part drawn ∧ part.term = p.toTerm ∧
        Between p.toTerm.min p.toTerm.max part.total
  | _, _ => True

/-- **A VALID SESSION ANSWERS RIGHT.** -/
theorem step_answersRight (h : s.Valid) (patience : Nat) (c : Command) :
    Meets (fun a _ => s.AnswersRight c a) (step patience c s) := by
  cases c with
  | «recall» of => exact meets_reading_stored fun e _ => meets_some rfl
  | reparse of into =>
      refine meets_reading_stored fun e he => ?_
      -- What is stored has a notation, so its text is neither rejected nor read
      -- as something else.
      have hback := Expression.parse_display_of_wellFormed (h.expressions of e he)
      refine meets_parsing (fun error hparse => ?_) fun again hparse => meets_some ?_
      · rw [hback] at hparse
        cases hparse
      · rw [hback] at hparse
        cases hparse
        simp only [decide_true]
  | rollPiece of =>
      refine meets_reading_stored fun p hp => meets_rolling fun part rest hroll => ?_
      obtain ⟨hterm, hwithin⟩ := (h.pieces of p hp).withinBounds_of_roll hroll
      refine meets_some ⟨part, rest.drawn, rfl, hterm, ?_⟩
      rw [← hterm]
      exact hwithin
  -- The other commands make no promise of their own.
  | _ => exact fun _ _ _ => trivial

/-! ## §7. Any run of commands. -/

/-- **A run passes through every command**: each is answered, and carried out
on the session that the ones before it left. -/
theorem step_of_run {patience : Nat} {commands : List Command} :
    ∀ {s final : Session σ} {answers : List Answer},
      run patience commands s = some (answers, final) →
      answers.length = commands.length ∧
        ∀ (i : Nat) (c : Command) (a : Answer), commands[i]? = some c → answers[i]? = some a →
          ∃ before after, run patience (commands.take i) s = some (answers.take i, before) ∧
            step patience c before = some (a, after) := by
  -- Along the commands, for every session: the first is answered on the session itself.
  induction commands with
  | nil =>
      intro s final answers h
      obtain ⟨rfl, rfl⟩ := Roller.mapM_nil_eq_some_iff.1 h
      refine ⟨rfl, fun i c a hc _ => ?_⟩
      cases hc
  | cons c commands ih =>
      intro s final answers h
      obtain ⟨a, between, more, hstep, hmore, rfl⟩ := Roller.mapM_cons_eq_some_iff.1 h
      -- A later command comes after the first one and some of the others.
      obtain ⟨hlength, hat⟩ := ih hmore
      refine ⟨congrArg (· + 1) hlength, fun i c' a' hc ha => ?_⟩
      cases i with
      | zero =>
          cases hc
          cases ha
          exact ⟨s, between, rfl, hstep⟩
      | succ i =>
          obtain ⟨before, after, hfront, hnext⟩ := hat i c' a' hc ha
          exact ⟨before, after,
            Roller.mapM_cons_eq_some_iff.2 ⟨a, between, _, hstep, hfront, rfl⟩, hnext⟩

/-- **A run keeps a session valid**, command by command. -/
theorem valid_of_run {patience : Nat} {commands : List Command} :
    ∀ {s final : Session σ} {answers : List Answer}, s.Valid →
      run patience commands s = some (answers, final) → final.Valid := by
  -- Each command starts from a valid session and leaves one.
  induction commands with
  | nil =>
      intro s final answers hs h
      obtain ⟨rfl, rfl⟩ := Roller.mapM_nil_eq_some_iff.1 h
      exact hs
  | cons c commands ih =>
      intro s final answers hs h
      obtain ⟨a, between, more, hstep, hmore, rfl⟩ := Roller.mapM_cons_eq_some_iff.1 h
      exact ih (step_valid hs patience c a between hstep) hmore

/-- **WHATEVER IS ASKED OF A SESSION, WHAT IT STORES STAYS VALID.**  A run of
any commands from empty tables leaves a valid session.  It answers every
command, on a valid session that the commands before it left, and rightly:
what is stored reads back from its text, and pieces roll within their bounds. -/
theorem run_valid {patience : Nat} {commands : List Command} {source : σ}
    {answers : List Answer} {s : Session σ}
    (h : run patience commands (fresh source) = some (answers, s)) :
    s.Valid ∧ answers.length = commands.length ∧
      ∀ (i : Nat) (c : Command) (a : Answer), commands[i]? = some c → answers[i]? = some a →
        ∃ before, run patience (commands.take i) (fresh source) = some (answers.take i, before) ∧
          before.Valid ∧ before.AnswersRight c a := by
  obtain ⟨hlength, hat⟩ := step_of_run h
  refine ⟨valid_of_run (valid_fresh source) h, hlength, fun i c a hc ha => ?_⟩
  obtain ⟨before, after, hfront, hstep⟩ := hat i c a hc ha
  -- The commands in front of this one are a run of their own.
  have hbefore : before.Valid := valid_of_run (valid_fresh source) hfront
  exact ⟨before, hfront, hbefore, step_answersRight hbefore patience c a after hstep⟩

/-- A reply with the answers has some session besides. -/
theorem exists_of_answers {α β : Type} {reply : Option (α × β)} {answers : α} {P : β → Prop}
    (hanswers : reply.map Prod.fst = some answers)
    (h : ∀ s, reply = some (answers, s) → P s) : ∃ s, reply = some (answers, s) ∧ P s := by
  obtain ⟨⟨_, s⟩, hreply, rfl⟩ := Option.map_eq_some_iff.1 hanswers
  exact ⟨s, hreply, h s hreply⟩

/-- A notation is read back, one of its terms is negated, and both are rolled;
zero is a piece as well. -/
theorem run_valid_of_sitting :
    ∃ s : Session ListedSource,
      run 1 [.parse "d6-2" "a", .reparse "a" "b", .pick "b" 0 "p", .negate "p",
          .makeConstant 0 "z", .roll "b" "r", .rollPiece "p"]
        (fresh ⟨[0x40000000, 0x80000000], 0⟩)
        = some
          ([.expression ⟨[.dice ⟨1, 6, .positive⟩, .constant ⟨-2⟩]⟩,
            .reparsed "1d6 - 2" true,
            .piece (.term (.dice ⟨1, 6, .positive⟩)),
            .piece (.term (.dice ⟨1, 6, .negative⟩)),
            .piece (.constant ⟨0⟩),
            .rolled ⟨[⟨.dice ⟨1, 6, .positive⟩, [2], 2⟩, ⟨.constant ⟨-2⟩, [-2], -2⟩], 0⟩ 1,
            .part ⟨.dice ⟨1, 6, .negative⟩, [-4], -4⟩ 2], s) ∧
      s.Valid ∧
      ∃ before : Session ListedSource, before.Valid ∧
        before.AnswersRight (.reparse "a" "b") (.reparsed "1d6 - 2" true) := by
  refine exists_of_answers (by decide +kernel) fun s hrun => ?_
  obtain ⟨hvalid, -, hat⟩ := run_valid hrun
  obtain ⟨before, -, hbefore, hright⟩ := hat 1 _ _ rfl rfl
  exact ⟨hvalid, before, hbefore, hright⟩

end Session

end TabletopDice
