/-
  TabletopDice.Proofs.Session.Failure
  ──────────────────────────────────────
  **A COMMAND THAT FAILS LEAVES NO TRACE.**

  A command fails before it does anything: names are looked up and texts are
  read first, and once a roll has begun the answer is no failure any more.  So a
  failure leaves the session as it was, the tables as well as the source, and a
  run in which failures are left out goes on as if they had never been asked
  for, over the same sessions and with the same words drawn.

    • `Session.step_failsCleanly` — a failure leaves the session as it was,
    • `Session.run_omitting` — failures can be left out of a run,
    • `Session.failures_leave_no_trace` — both, for any run.
-/
import Mathlib.Data.Finset.Insert
import TabletopDice.Proofs.Session.Invariant

namespace TabletopDice

namespace Session

/-! ## §1. One command. -/

section Step

variable {σ : Type} {s : Session σ}

/-- **If the reply is a failure then the session is the one before.** -/
abbrev FailsCleanly (s : Session σ) (reply : Reply σ) : Prop :=
  Meets (fun a after => a.isFailure = true → after = s) reply

/-- Leaving the session as it is leaves no trace, whatever is answered. -/
theorem failsCleanly_keep (a : Answer) : s.FailsCleanly (s.keep a) :=
  meets_some fun _ => rfl

/-- A reply that reports no failure may change what it likes. -/
theorem failsCleanly_of_success {a : Answer} {after : Session σ} (ha : a.isFailure = false) :
    s.FailsCleanly (some (a, after)) := by
  refine meets_some fun hfailure => ?_
  rw [ha] at hfailure
  cases hfailure

/-- A missing name changes nothing; else it depends on what is done with the value. -/
theorem failsCleanly_reading {α : Type} {table : Table α} {name : String} {go : α → Reply σ}
    (hgo : ∀ value, s.FailsCleanly (go value)) : s.FailsCleanly (s.reading table name go) :=
  meets_reading (fun _ _ => rfl) fun value _ => hgo value

/-- A rejected text changes nothing; else it depends on what is done with the expression. -/
theorem failsCleanly_parsing {text : String} {go : Expression → Reply σ}
    (hgo : ∀ e, s.FailsCleanly (go e)) : s.FailsCleanly (s.parsing text go) :=
  meets_parsing (fun _ _ _ => rfl) fun e _ => hgo e

variable [WordSource σ]

/-- What was rolled is stored and told; there is nothing left to fail. -/
theorem failsCleanly_rollInto (patience : Nat) (e : Expression) (into : String) :
    s.FailsCleanly (s.rollInto patience e into) :=
  meets_rolling fun _ _ _ => failsCleanly_of_success rfl

/-- **A COMMAND THAT FAILS LEAVES THE SESSION AS IT WAS.** -/
theorem step_failsCleanly (patience : Nat) (c : Command) (s : Session σ) :
    s.FailsCleanly (step patience c s) := by
  -- Each command either reports success or has only read so far.
  cases c with
  | parse text into =>
      exact failsCleanly_parsing fun e => failsCleanly_of_success rfl
  | «recall» of =>
      exact failsCleanly_reading fun e => failsCleanly_keep _
  | reparse of into =>
      refine failsCleanly_reading fun e => failsCleanly_parsing fun again => ?_
      exact failsCleanly_of_success rfl
  | roll of into =>
      exact failsCleanly_reading fun e => failsCleanly_rollInto patience e into
  | rollText text into =>
      exact failsCleanly_parsing fun e => failsCleanly_rollInto patience e into
  | rollTotal of =>
      refine failsCleanly_reading fun e => meets_rolling fun r rest _ => ?_
      exact failsCleanly_of_success rfl
  | compare a b =>
      exact failsCleanly_reading fun _ => failsCleanly_reading fun _ => failsCleanly_keep _
  | compareRolls a b =>
      exact failsCleanly_reading fun _ => failsCleanly_reading fun _ => failsCleanly_keep _
  | makeDice count sides into => exact failsCleanly_of_success rfl
  | makeConstant value into => exact failsCleanly_of_success rfl
  | makeTerm of into =>
      exact failsCleanly_reading fun p => failsCleanly_of_success rfl
  | pick of index into =>
      refine failsCleanly_reading fun e => ?_
      cases e.terms[index]? with
      | none => exact failsCleanly_keep _
      | some t => exact failsCleanly_of_success rfl
  | negate of =>
      exact failsCleanly_reading fun p => failsCleanly_of_success rfl
  | inspect of =>
      exact failsCleanly_reading fun p => failsCleanly_keep _
  | compareTerms a b =>
      exact failsCleanly_reading fun _ => failsCleanly_reading fun _ => failsCleanly_keep _
  | rollPiece of =>
      refine failsCleanly_reading fun p => meets_rolling fun part rest _ => ?_
      exact failsCleanly_of_success rfl

end Step

/-! ## §2. Leaving entries out. -/

/-- The entries of a list that are at none of the given places, when the first
entry is at `first`. -/
def omitting {α : Type} (places : Finset ℕ) (first : ℕ) (xs : List α) : List α :=
  ((xs.zipIdx first).filter fun entry => entry.2 ∉ places).map Prod.fst

theorem omitting_cons_of_mem {α : Type} {places : Finset ℕ} {first : ℕ} (h : first ∈ places)
    (x : α) (xs : List α) :
    omitting places first (x :: xs) = omitting places (first + 1) xs := by
  simp [omitting, List.zipIdx_cons, h]

theorem omitting_cons_of_notMem {α : Type} {places : Finset ℕ} {first : ℕ} (h : first ∉ places)
    (x : α) (xs : List α) :
    omitting places first (x :: xs) = x :: omitting places (first + 1) xs := by
  simp [omitting, List.zipIdx_cons, h]

/-! ## §3. Any run of commands. -/

variable {σ : Type} [WordSource σ]

/-- **FAILURES CAN BE LEFT OUT OF A RUN**: the other commands are answered as
before, and the run ends with the same session. -/
theorem run_omitting {patience : Nat} {places : Finset ℕ} {commands : List Command} :
    ∀ {first : ℕ} {s final : Session σ} {answers : List Answer},
      run patience commands s = some (answers, final) →
      (∀ i a, first + i ∈ places → answers[i]? = some a → a.isFailure = true) →
      run patience (omitting places first commands) s
        = some (omitting places first answers, final) := by
  -- Along the commands, for every place that the first one may have and every session.
  induction commands with
  | nil =>
      intro first s final answers h _
      obtain ⟨rfl, rfl⟩ := Roller.mapM_nil_eq_some_iff.1 h
      rfl
  | cons c commands ih =>
      intro first s final answers h hfailures
      obtain ⟨a, between, more, hstep, hmore, rfl⟩ := Roller.mapM_cons_eq_some_iff.1 h
      -- Places are counted from the front, so the others start one place further on.
      have hlater : run patience (omitting places (first + 1) commands) between
          = some (omitting places (first + 1) more, final) := by
        refine ih hmore fun i a' hi ha => hfailures (i + 1) a' ?_ ha
        rwa [Nat.add_comm i 1, ← Nat.add_assoc]
      by_cases hfirst : first ∈ places
      · -- The first command failed, so the others start from the same session.
        have hbetween : between = s :=
          step_failsCleanly patience c s a between hstep (hfailures 0 a hfirst rfl)
        rw [omitting_cons_of_mem hfirst, omitting_cons_of_mem hfirst]
        rw [hbetween] at hlater
        exact hlater
      · rw [omitting_cons_of_notMem hfirst, omitting_cons_of_notMem hfirst]
        exact Roller.mapM_cons_eq_some_iff.2 ⟨a, between, _, hstep, hlater, rfl⟩

/-- **FAILURES LEAVE NO TRACE.**  In any run of commands, from any session, a
command that fails leaves the session that it was carried out on: every stored
value, and the source with the number of words drawn.  So any of the failures
can be left out, and all else is answered as it was, to the same end. -/
theorem failures_leave_no_trace {patience : Nat} {commands : List Command}
    {s final : Session σ} {answers : List Answer}
    (h : run patience commands s = some (answers, final)) :
    (∀ (i : Nat) (c : Command) (a : Answer), commands[i]? = some c → answers[i]? = some a →
      a.isFailure = true →
        ∃ before, run patience (commands.take i) s = some (answers.take i, before) ∧
          step patience c before = some (a, before)) ∧
      ∀ places : Finset ℕ,
        (∀ i ∈ places, ∀ a, answers[i]? = some a → a.isFailure = true) →
        run patience (omitting places 0 commands) s
          = some (omitting places 0 answers, final) := by
  constructor
  · intro i c a hc ha hfailure
    obtain ⟨-, hat⟩ := step_of_run h
    obtain ⟨before, after, hfront, hstep⟩ := hat i c a hc ha
    have hafter : after = before := step_failsCleanly patience c before a after hstep hfailure
    -- The session after the failure is the one it was carried out on.
    rw [hafter] at hstep
    exact ⟨before, hfront, hstep⟩
  · intro places hfailures
    refine run_omitting h fun i a hi ha => hfailures i ?_ a ha
    rwa [Nat.zero_add] at hi

/-- A text that is no expression is to be rolled, and a name is missing; the
second roll draws the second word, with or without them. -/
theorem failures_leave_no_trace_of_rolls :
    ∃ s : Session ListedSource,
      run 1 [.parse "d6" "a", .roll "a" "r", .rollText "2d6 +" "q", .roll "b" "r",
          .rollTotal "a"]
        (fresh ⟨[0x40000000, 0x80000000], 0⟩)
        = some
          ([.expression ⟨[.dice ⟨1, 6, .positive⟩]⟩,
            .rolled ⟨[⟨.dice ⟨1, 6, .positive⟩, [2], 2⟩], 2⟩ 1,
            .rejected .trailingOperator,
            .missing,
            .total 4 2], s) ∧
      run 1 [.parse "d6" "a", .roll "a" "r", .rollTotal "a"]
        (fresh ⟨[0x40000000, 0x80000000], 0⟩)
        = some
          ([.expression ⟨[.dice ⟨1, 6, .positive⟩]⟩,
            .rolled ⟨[⟨.dice ⟨1, 6, .positive⟩, [2], 2⟩], 2⟩ 1,
            .total 4 2], s) := by
  refine exists_of_answers (by decide +kernel) fun s hrun => ?_
  exact (failures_leave_no_trace hrun).2 {2, 3} (by decide)

end Session

end TabletopDice
