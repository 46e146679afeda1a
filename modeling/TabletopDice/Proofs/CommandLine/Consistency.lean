/-
  TabletopDice.Proofs.CommandLine.Consistency
  ──────────────────────────────────────
  **THE ROLLS OF THE PROGRAM ARE ONE RUN.**

  All rolls of a run are made over one source, each from where the one before
  it stopped, wherever its rejected words have left that.  With the same seed a
  shorter run is therefore the beginning of a longer one.  The bounds are
  printed without rolling, so neither the seed nor the number of rolls shows in
  them, and every printed total keeps to them.

    • `Expression.Successive` — rolls over one source, one after the other,
    • `CommandLine.splitOn_lines` — printed lines can be told apart,
    • `CommandLine.prints_rolls`, `CommandLine.prints_bounds` — what a run
      prints in either mode,
    • `CommandLine.consistent_runs` — both, for every notation and seed.
-/
import TabletopDice.CommandLine.Run
import TabletopDice.Proofs.CommandLine.Arguments
import TabletopDice.Proofs.Roll.Exactness

namespace TabletopDice

/-! ## §1. Rolls over one source. -/

namespace Expression

variable {σ : Type} [WordSource σ]

/-- **Successive rolls**: each starts over the source that the one before it
left. -/
inductive Successive (e : Expression) : σ → List Roll → σ → Prop
  | done {source : σ} : Successive e source [] source
  | roll {source between rest : σ} {r : Roll} {rolls : List Roll} :
      Outcome (fun patience => e.roll patience) source r between →
      Successive e between rolls rest → Successive e source (r :: rolls) rest

namespace Successive

variable {e : Expression} {source rest : σ} {rolls : List Roll}

/-- Rolling again and again makes successive rolls. -/
theorem outcome (h : e.Successive source rolls rest) :
    Outcome (fun patience => e.rollTimes patience rolls.length) source rolls rest := by
  unfold rollTimes
  induction h with
  | done => exact Outcome.mapM_nil _ _
  | roll hfirst _ ih => exact Outcome.mapM_cons hfirst ih

/-- **The first few of successive rolls are successive rolls.** -/
theorem take (h : e.Successive source rolls rest) :
    ∀ n : Nat, ∃ between, e.Successive source (rolls.take n) between := by
  -- Along the rolls, for every number of them.
  induction h with
  | @done source =>
      intro n
      rw [List.take_nil]
      exact ⟨source, .done⟩
  | @roll source _ _ r rolls hfirst _ ih =>
      intro n
      cases n with
      | zero => exact ⟨source, .done⟩
      | succ n =>
          obtain ⟨between, hmore⟩ := ih n
          exact ⟨between, .roll hfirst hmore⟩

/-- Each of them is exact, wherever the source has come to. -/
theorem exact (h : e.Successive source rolls rest) (hlimits : ∀ t ∈ e.terms, t.WithinLimits)
    (hfew : e.length ≤ maxTerms) : ∀ r ∈ rolls, r.Exact e := by
  induction h with
  | done =>
      intro r hr
      cases hr
  | roll hfirst _ ih =>
      intro r hr
      rcases List.mem_cons.1 hr with rfl | hr
      -- Whatever source a roll starts from, the limits of the expression make it exact.
      · obtain ⟨enough, henough⟩ := hfirst.settles
        obtain ⟨faces, hdraws, rfl⟩ := draws_of_roll (henough enough (Nat.le_refl _))
        exact exact_dealt hlimits hfew hdraws.shows
      · exact ih r hr

end Successive

end Expression

/-! ## §2. Lines. -/

/-- Signs and spaces apart, a signed sum has no character that its addends lack. -/
theorem SignedSum.notMem_text {c : Char} (hc : c ∉ [' ', '+', '-']) {addends : List Addend}
    (h : ∀ a ∈ addends, c ∉ a.body) : c ∉ text addends := by
  have hleading : ∀ a ∈ addends, c ∉ leading a := by
    intro a ha
    have hbody := h a ha
    unfold leading
    split <;> simp_all
  have hfollowing : ∀ a ∈ addends, c ∉ following a := by
    intro a ha
    have hbody := h a ha
    unfold following
    split <;> simp_all
  cases addends with
  | nil => exact List.not_mem_nil
  | cons a more =>
      rw [text_cons, List.mem_append, List.mem_flatMap]
      rintro (hfirst | ⟨b, hb, hlater⟩)
      · exact hleading a List.mem_cons_self hfirst
      · exact hfollowing b (List.mem_cons_of_mem a hb) hlater

theorem Decimal.newline_notMem_natural (n : Nat) : '\n' ∉ natural n :=
  fun h => absurd (isDigit_natural h) (by decide)

theorem Decimal.newline_notMem_signed (i : Int) : '\n' ∉ signed i := by
  have hnatural := newline_notMem_natural i.natAbs
  unfold signed
  split <;> simp_all

/-- Neither the separator nor the texts bring the character in. -/
theorem notMem_intercalate {c : Char} {separator : List Char} (hc : c ∉ separator)
    {texts : List (List Char)} (h : ∀ text ∈ texts, c ∉ text) :
    c ∉ separator.intercalate texts := by
  induction texts with
  | nil => exact List.not_mem_nil
  | cons text texts ih =>
      have hfirst : c ∉ text := h text List.mem_cons_self
      have hmore := ih fun t ht => h t (List.mem_cons_of_mem text ht)
      cases texts with
      | nil =>
          rw [List.intercalate_singleton]
          exact hfirst
      | cons _ _ =>
          rw [List.intercalate_cons_cons]
          simp only [List.mem_append, not_or]
          exact ⟨⟨hfirst, hc⟩, hmore⟩

/-- A part is shown on one line. -/
theorem Part.newline_notMem_text (p : Part) : '\n' ∉ p.text := by
  unfold text
  split
  · have hfaces : '\n' ∉ [',', ' '].intercalate
        (p.faces.map fun face => Decimal.natural face.toInt.natAbs) := by
      refine notMem_intercalate (by decide) fun text htext => ?_
      obtain ⟨face, -, rfl⟩ := List.mem_map.1 htext
      exact Decimal.newline_notMem_natural _
    unfold bracketed
    simp [hfaces]
  · exact Decimal.newline_notMem_natural _

/-- **A roll is shown on one line.** -/
theorem Roll.newline_notMem_equation (r : Roll) : '\n' ∉ r.equation := by
  have htext : '\n' ∉ r.text := by
    refine SignedSum.notMem_text (by decide) fun a ha => ?_
    obtain ⟨p, -, rfl⟩ := List.mem_map.1 ha
    exact p.newline_notMem_text
  have htotal := Decimal.newline_notMem_signed r.total.toInt
  unfold equation
  simp_all

namespace CommandLine

/-- **Printed lines can be told apart**: every line is ended, and nothing stands
behind the last one. -/
theorem splitOn_lines {lines : List (List Char)} (h : ∀ line ∈ lines, '\n' ∉ line) :
    (lines.flatMap (· ++ ['\n'])).splitOn '\n' = lines ++ [[]] := by
  -- Along the lines: a line is what stands in front of the first line end.
  induction lines with
  | nil => rfl
  | cons line lines ih =>
      have hmore := ih fun l hl => h l (List.mem_cons_of_mem line hl)
      rw [List.flatMap_cons, List.append_assoc, List.singleton_append,
        List.splitOn_append_cons_self_of_not_mem (h line List.mem_cons_self), hmore,
        List.cons_append]

/-- **The run succeeded and printed these lines**, and nothing else. -/
structure Ending.PrintsLines (ending : Ending) (lines : List (List Char)) : Prop where
  status : ending.status = 0
  errors : ending.errors = ""
  output : ending.output.toList.splitOn '\n' = lines ++ [[]]

/-- Lines that are printed one after the other are the lines of the output. -/
theorem Ending.printsLines_printed {lines : List (List Char)}
    (h : ∀ line ∈ lines, '\n' ∉ line) :
    (printed (lines.flatMap (· ++ ['\n']))).PrintsLines lines where
  status := rfl
  errors := rfl
  output := by
    show (String.ofList _).toList.splitOn '\n' = _
    rw [String.toList_ofList, splitOn_lines h]

/-- **The program prints these lines for the arguments**, whatever seed a run
would take by itself: with enough patience it does, and it never ends in
another way. -/
structure Prints (arguments : List String) (lines : List (List Char)) : Prop where
  settles : ∃ enough, ∀ patience freshSeed, enough ≤ patience →
    ∃ ending, run patience freshSeed arguments = some ending
  only : ∀ patience freshSeed ending, run patience freshSeed arguments = some ending →
    ending.PrintsLines lines

/-! ## §3. Runs. -/

variable {arguments : List String} {source : String} {e : Expression} {times : UInt32}

/-- A run of understood arguments with a notation ends with its report. -/
theorem run_of_options {options : Options}
    (hoptions : Options.ofArguments arguments = .ok options)
    (he : Expression.parse options.source = .ok e) (patience : Nat) (freshSeed : UInt64) :
    run patience freshSeed arguments = (report patience freshSeed options e).map .printed := by
  unfold run
  rw [hoptions]
  simp only [he]

/-- With a seed the report is about the rolls over the source of that seed. -/
theorem report_rolls (patience : Nat) (freshSeed seed : UInt64) :
    report patience freshSeed ⟨source, times, some seed, false⟩ e
      = (e.rollTimes patience times.toNat (SeededSource.ofSeed seed)).map
          fun result => (result.1.map Roll.equation).flatMap (· ++ ['\n']) := by
  -- The seed was given, so the fresh one is not taken.
  unfold report
  simp only [Bool.false_eq_true, if_false, Option.getD_some, List.flatMap_map]
  cases (e.rollTimes patience times.toNat (SeededSource.ofSeed seed)) with
  | none => rfl
  | some result => rfl

/-- **A line for each roll is printed.** -/
theorem prints_rolls {seed : UInt64} {rolls : List Roll} {rest : SeededSource}
    (hasks : AsksRolls arguments source times seed) (he : Expression.parse source = .ok e)
    (hrolls : e.Successive (SeededSource.ofSeed seed) rolls rest)
    (htimes : rolls.length = times.toNat) : Prints arguments (rolls.map Roll.equation) := by
  have houtcome := hrolls.outcome
  -- As many rolls are asked for as there are, and no other rolls are possible.
  rw [htimes] at houtcome
  constructor
  · obtain ⟨enough, henough⟩ := houtcome.settles
    refine ⟨enough, fun patience freshSeed hle => ?_⟩
    rw [run_of_options hasks he, report_rolls, henough patience hle]
    exact ⟨_, rfl⟩
  · intro patience freshSeed ending hrun
    rw [run_of_options hasks he, report_rolls, Option.map_map] at hrun
    obtain ⟨result, hresult, rfl⟩ := Option.map_eq_some_iff.1 hrun
    rw [houtcome.only patience result hresult]
    refine Ending.printsLines_printed fun line hline => ?_
    obtain ⟨r, -, rfl⟩ := List.mem_map.1 hline
    exact r.newline_notMem_equation

/-- The lowest and the highest total in one line. -/
def boundsText (e : Expression) : List Char :=
  "min: ".toList ++ Decimal.signed e.min.toInt ++ ", max: ".toList
    ++ Decimal.signed e.max.toInt

theorem newline_notMem_boundsText (e : Expression) : '\n' ∉ boundsText e := by
  have hmin := Decimal.newline_notMem_signed e.min.toInt
  have hmax := Decimal.newline_notMem_signed e.max.toInt
  unfold boundsText
  simp_all

/-- **The bounds are printed without rolling**, whatever the seed and the number
of rolls. -/
theorem prints_bounds (hasks : AsksBounds arguments source)
    (he : Expression.parse source = .ok e) : Prints arguments [boundsText e] := by
  obtain ⟨times, seed, hoptions⟩ := hasks
  -- Neither the patience nor the fresh seed is used: nothing is rolled.
  have hrun : ∀ patience freshSeed, run patience freshSeed arguments
      = some (.printed ([boundsText e].flatMap (· ++ ['\n']))) := by
    intro patience freshSeed
    rw [run_of_options hoptions he, List.flatMap_singleton]
    unfold boundsText
    rfl
  constructor
  · exact ⟨0, fun patience freshSeed _ => ⟨_, hrun patience freshSeed⟩⟩
  · intro patience freshSeed ending hending
    rw [hrun] at hending
    cases hending
    refine Ending.printsLines_printed fun line hline => ?_
    rw [List.mem_singleton.1 hline]
    exact newline_notMem_boundsText e

/-- **ALL RUNS WITH ONE SEED ARE CONSISTENT.**  Let a notation of at most 400000
bytes be rolled `n` times in succession over the source of a seed.  Any `m ≤ n`
of the rolls can be asked for, and the program then succeeds and prints a line
for each of the first `m`.  The bounds can be asked for with any seed and any
number of rolls, the program always prints the same line then, and every total
lies between the two numbers in it. -/
theorem consistent_runs {seed : UInt64} {n : UInt32} {rolls : List Roll} {rest : SeededSource}
    (hsize : source.utf8ByteSize ≤ 400000) (he : Expression.parse source = .ok e)
    (hrolls : e.Successive (SeededSource.ofSeed seed) rolls rest)
    (hcount : rolls.length = n.toNat) :
    (∀ m ≤ n,
      ((rolls.map Roll.equation).take m.toNat).length = m.toNat ∧
      AsksRolls (rollArguments m seed source) source m seed ∧
      ∀ arguments, AsksRolls arguments source m seed →
        Prints arguments ((rolls.map Roll.equation).take m.toNat)) ∧
    (∀ times anySeed, AsksBounds (boundsArguments times anySeed source) source) ∧
    (∀ arguments, AsksBounds arguments source → Prints arguments [boundsText e]) ∧
    ∀ r ∈ rolls, r.WithinBounds e := by
  have hdash := Expression.notDashed_of_parse he
  have hlength := Expression.two_mul_length_le_of_parse he
  have hmax : maxTerms = 214748 := rfl
  obtain ⟨-, -, hlimits⟩ := Expression.wellFormed_of_parse he
  refine ⟨fun m hm => ?_, fun times anySeed => asksBounds_boundsArguments hdash times anySeed,
    fun arguments hasks => prints_bounds hasks he, fun r hr => ?_⟩
  · have hle : m.toNat ≤ rolls.length := hcount ▸ UInt32.le_iff_toNat_le.1 hm
    have htake : (rolls.take m.toNat).length = m.toNat := by
      rw [List.length_take, Nat.min_eq_left hle]
    -- The first few of the rolls are a run of their own, from the same seed.
    obtain ⟨between, hfirst⟩ := hrolls.take m.toNat
    rw [← List.map_take, List.length_map]
    exact ⟨htake, asksRolls_rollArguments hdash m seed,
      fun arguments hasks => prints_rolls hasks he hfirst htake⟩
  · exact (hrolls.exact hlimits (by omega) r hr).within

/-- Two rolls of one die; the second finds its word after a rejected one. -/
theorem consistent_runs_of_one_die :
    Prints ["-n", "2", "-s", "2", "d6"] ["[1] = 1".toList, "[6] = 6".toList] ∧
    Prints ["--times=1", "d6", "-s2"] ["[1] = 1".toList] ∧
    Prints ["d6", "--bounds"] ["min: 1, max: 6".toList] := by
  have hparse : Expression.parse "d6" = .ok ⟨[.dice ⟨1, 6, .positive⟩]⟩ := by decide +kernel
  have hfirst : Die.Finds 6 (SeededSource.ofSeed 2) 1 (SeededSource.ofSeed 2).next.2 :=
    .accepted (by decide +kernel)
  have hretry : Die.Finds 6 (SeededSource.ofSeed 2).next.2.next.2 6
      (SeededSource.ofSeed 2).next.2.next.2.next.2 := .accepted (by decide +kernel)
  have hsecond : Die.Finds 6 (SeededSource.ofSeed 2).next.2 6
      (SeededSource.ofSeed 2).next.2.next.2.next.2 := .rejected (by decide +kernel) hretry
  have hrolls : Expression.Successive ⟨[.dice ⟨1, 6, .positive⟩]⟩ (SeededSource.ofSeed 2)
      [Expression.dealt ⟨[.dice ⟨1, 6, .positive⟩]⟩ [1],
        Expression.dealt ⟨[.dice ⟨1, 6, .positive⟩]⟩ [6]]
      (SeededSource.ofSeed 2).next.2.next.2.next.2 :=
    .roll (Expression.outcome_of_draws (.die hfirst .done))
      (.roll (Expression.outcome_of_draws (.die hsecond .done)) .done)
  have hasks : Options.ofArguments ["d6", "--bounds"] = .ok ⟨"d6", 1, none, true⟩ := by
    decide +kernel
  obtain ⟨hprints, -, hbounds, -⟩ :=
    @consistent_runs "d6" _ 2 2 _ _ (by decide) hparse hrolls rfl
  obtain ⟨-, -, htwo⟩ := hprints 2 (by decide)
  obtain ⟨-, -, hone⟩ := hprints 1 (by decide)
  exact ⟨htwo _ (by decide +kernel), hone _ (by decide +kernel), hbounds _ ⟨1, none, hasks⟩⟩

end CommandLine

end TabletopDice
