/-
  TabletopDice.Proofs.Roll.Termination
  ──────────────────────────────────────
  **ROLLING ENDS OVER EVERY LISTED SOURCE.**

  A die with sides accepts the word zero, and the sequence behind the listed
  words comes to the state zero from wherever it starts.  So a die draws no
  more than the listed words and one cycle of the sequence.  Drawing never
  adds to the listed words, and the next die has the same bound.

    • `Die.exists_accepted_of_cycle` — no cycle consists of rejected words,
    • `Die.succeeds_throw` — a throw ends, and leaves a source over which
      the next throw ends,
    • `Roller.SucceedsOn.mapM` — what one throw keeps, any number of them keep,
    • `Expression.roll_ends` — the roll of an accepted expression.
-/
import TabletopDice.Proofs.Grammar.RoundTrip
import TabletopDice.Proofs.Random.Congruential
import TabletopDice.Proofs.Roll.Draws

namespace TabletopDice

/-! ## §1. Rolls that keep the next one possible. -/

namespace Roller

variable {σ α β : Type}

/-- **From every source of a kind there is a roll, and it leaves a source of
that kind.** -/
def SucceedsOn (ready : σ → Prop) (roll : Roller σ α) : Prop :=
  ∀ source, ready source → ∃ value rest, roll source = some (value, rest) ∧ ready rest

namespace SucceedsOn

variable {ready : σ → Prop}

theorem pure (value : α) : SucceedsOn ready (Pure.pure value : Roller σ α) := by
  intro source hready
  exact ⟨value, source, rfl, hready⟩

theorem bind {first : Roller σ α} {second : α → Roller σ β} (hfirst : SucceedsOn ready first)
    (hsecond : ∀ a, SucceedsOn ready (second a)) : SucceedsOn ready (first >>= second) := by
  intro source hready
  obtain ⟨a, between, ha, hbetween⟩ := hfirst source hready
  obtain ⟨b, rest, hb, hrest⟩ := hsecond a between hbetween
  exact ⟨b, rest, bind_eq_some_iff.2 ⟨a, between, ha, hb⟩, hrest⟩

theorem map {roll : Roller σ α} (f : α → β) (h : SucceedsOn ready roll) :
    SucceedsOn ready (do return f (← roll)) :=
  h.bind fun a => pure (f a)

/-- **One after the other, any number of rolls succeed.** -/
theorem mapM {as : List α} {roll : α → Roller σ β} (h : ∀ a ∈ as, SucceedsOn ready (roll a)) :
    SucceedsOn ready (as.mapM roll) := by
  -- Along the list: what the first roll leaves is a source of the same kind, over
  -- which the others succeed.
  induction as with
  | nil =>
      rw [List.mapM_nil]
      exact pure []
  | cons a as ih =>
      have hmore : SucceedsOn ready (as.mapM roll) :=
        ih fun b hb => h b (List.mem_cons_of_mem a hb)
      rw [List.mapM_cons]
      exact (h a List.mem_cons_self).bind fun b => hmore.map (b :: ·)

end SucceedsOn

end Roller

/-! ## §2. The sequence has a word for every die. -/

namespace Die

/-- **Every die with sides accepts the word zero.** -/
theorem faceOf?_zero {sides : UInt32} (h : sides ≠ 0) : faceOf? sides 0 = some 1 := by
  -- The product of zero has a zero lower half, and no zone excludes zero.
  have hproduct : product sides 0 = 0 := UInt64.zero_mul
  have hlower : lower 0 ≤ zone sides := UInt32.zero_le
  unfold faceOf?
  rw [if_neg h, hproduct, if_pos hlower]
  rfl

/-- So the state zero stands for a word that every die accepts. -/
theorem isSome_faceOf?_word_zero {sides : UInt32} (h : sides ≠ 0) :
    (faceOf? sides (Congruential.word 0)).isSome := by
  have hword : Congruential.word 0 = 0 := by decide
  rw [hword, faceOf?_zero h]
  rfl

/-- **No cycle of the sequence consists of rejected words.** -/
theorem exists_accepted_of_cycle {sides : UInt32} (h : sides ≠ 0) {start : UInt64} {period : Nat}
    (hpos : 0 < period) (hcycle : Congruential.step^[period] start = start) :
    ∃ n, n < period ∧
      (faceOf? sides (Congruential.word (Congruential.step^[n] start))).isSome := by
  obtain ⟨n, hn, hzero⟩ := Congruential.exists_iterate_eq_of_cycle hpos hcycle 0
  refine ⟨n, hn, ?_⟩
  rw [hzero]
  exact isSome_faceOf?_word_zero h

/-! ## §3. One die over a listed source. -/

/-- Without listed words the die draws no further than to the first word of the
sequence that it accepts. -/
theorem exists_throw_of_accepted {sides : UInt32} {patience : Nat} :
    ∀ {n : Nat} {fill : UInt64}, n < patience →
      (faceOf? sides (Congruential.word (Congruential.step^[n + 1] fill))).isSome →
      ∃ face state, throw sides patience (ListedSource.mk [] fill) = some (face, ⟨[], state⟩) := by
  -- Along the patience, for every distance of the accepted word: a rejected word uses
  -- up one of each.
  induction patience with
  | zero =>
      intro n fill hn
      exact absurd hn (Nat.not_lt_zero n)
  | succ patience ih =>
      intro n fill hn haccepted
      rw [Function.iterate_succ_apply] at haccepted
      cases hfirst : faceOf? sides (WordSource.next (ListedSource.mk [] fill)).1 with
      | some face => exact ⟨face, Congruential.step fill, throw_succ_of_some hfirst patience⟩
      | none =>
          rw [throw_succ_of_none hfirst]
          -- The accepted word stands behind this one, and is one place nearer from there.
          cases n with
          | zero =>
              have hword : faceOf? sides (Congruential.word (Congruential.step fill)) = none :=
                hfirst
              rw [Function.iterate_zero_apply, hword] at haccepted
              cases haccepted
          | succ n => exact ih (Nat.lt_of_succ_lt_succ hn) haccepted

/-- **A die finds its word**, at the latest where the sequence comes to zero,
and what it leaves has no more listed words. -/
theorem exists_throw {sides : UInt32} (h : sides ≠ 0) (words : List UInt32) :
    ∀ (fill : UInt64) {patience : Nat}, words.length + UInt64.size ≤ patience →
      ∃ face rest, throw sides patience (ListedSource.mk words fill) = some (face, rest) ∧
        rest.words.length ≤ words.length := by
  -- Along the listed words; behind the last of them the sequence comes to zero within
  -- one cycle.
  induction words with
  | nil =>
      intro fill patience hpatience
      obtain ⟨n, hn, hzero⟩ := Congruential.exists_iterate_eq (Congruential.step fill) 0
      have haccepted :
          (faceOf? sides (Congruential.word (Congruential.step^[n + 1] fill))).isSome := by
        rw [Function.iterate_succ_apply, hzero]
        exact isSome_faceOf?_word_zero h
      rw [List.length_nil, Nat.zero_add] at hpatience
      obtain ⟨face, state, hthrow⟩ :=
        exists_throw_of_accepted (Nat.lt_of_lt_of_le hn hpatience) haccepted
      exact ⟨face, ⟨[], state⟩, hthrow, Nat.le_refl _⟩
  | cons word words ih =>
      intro fill patience hpatience
      rw [List.length_cons] at hpatience ⊢
      obtain ⟨more, rfl⟩ : ∃ more, patience = more + 1 := ⟨patience - 1, by omega⟩
      cases hface : faceOf? sides (WordSource.next (ListedSource.mk (word :: words) fill)).1 with
      | some face =>
          exact ⟨face, ⟨words, fill⟩, throw_succ_of_some hface more, Nat.le_succ _⟩
      | none =>
          rw [throw_succ_of_none hface]
          have hmore : words.length + UInt64.size ≤ more := by omega
          obtain ⟨face, rest, hthrow, hrest⟩ := ih fill hmore
          exact ⟨face, rest, hthrow, Nat.le_succ_of_le hrest⟩

end Die

/-- **The patience lasts for the source**: for every listed word, and for as
many words as the sequence has states. -/
def ListedSource.Lasts (patience : Nat) (source : ListedSource) : Prop :=
  source.words.length + UInt64.size ≤ patience

/-- **A throw ends while the patience lasts**, and the patience still lasts for
what it leaves. -/
theorem Die.succeeds_throw {sides : UInt32} (h : sides ≠ 0) (patience : Nat) :
    Roller.SucceedsOn (ListedSource.Lasts patience) (Die.throw sides patience) := by
  intro source hlasts
  obtain ⟨face, rest, hthrow, hrest⟩ := exists_throw h source.words source.fill hlasts
  exact ⟨face, rest, hthrow, Nat.le_trans (Nat.add_le_add_right hrest _) hlasts⟩

/-! ## §4. Terms and expressions. -/

/-- A term within its limits throws dice that have sides, or none at all. -/
theorem Term.succeeds_roll {t : Term} (h : t.WithinLimits) (patience : Nat) :
    Roller.SucceedsOn (ListedSource.Lasts patience) (t.roll patience) := by
  cases t with
  | dice d =>
      have hsides : d.sides ≠ 0 := Die.ne_zero_of_one_le h.2.2
      have hthrows : Roller.SucceedsOn (ListedSource.Lasts patience) (d.throwAll patience) := by
        refine Roller.SucceedsOn.mapM fun sides hmem => ?_
        -- Every die of a group has the sides of the group.
        rw [List.eq_of_mem_replicate hmem]
        exact Die.succeeds_throw hsides patience
      exact hthrows.map d.part
  | constant c => exact Roller.SucceedsOn.pure c.roll

namespace Expression

variable {e : Expression}

/-- **An expression within the limits rolls while the patience lasts.** -/
theorem succeeds_roll (h : ∀ t ∈ e.terms, t.WithinLimits) (patience : Nat) :
    Roller.SucceedsOn (ListedSource.Lasts patience) (e.roll patience) :=
  (Roller.SucceedsOn.mapM fun t ht => Term.succeeds_roll (h t ht) patience).map Roll.ofParts

/-- **An ample patience never runs out**, unless more words are listed than the
sequence has states: any number of rolls come to an end. -/
theorem exists_rollTimes_amplePatience (h : ∀ t ∈ e.terms, t.WithinLimits)
    {source : ListedSource} (hwords : source.words.length ≤ UInt64.size) (times : Nat) :
    ∃ rolls rest, e.rollTimes Die.amplePatience times source = some (rolls, rest) := by
  have hrolls : Roller.SucceedsOn (ListedSource.Lasts Die.amplePatience)
      (e.rollTimes Die.amplePatience times) := by
    -- Any number of rolls of one expression is the expression rolled once and again.
    refine Roller.SucceedsOn.mapM fun e' hmem => ?_
    rw [List.eq_of_mem_replicate hmem]
    exact succeeds_roll h Die.amplePatience
  have hlasts : source.Lasts Die.amplePatience := by
    unfold ListedSource.Lasts Die.amplePatience
    omega
  obtain ⟨rolls, rest, hroll, -⟩ := hrolls source hlasts
  exact ⟨rolls, rest, hroll⟩

/-- **ROLLING ENDS OVER EVERY LISTED SOURCE.**  For any listed words and any
state of the sequence behind them, each die of an accepted expression finds a
word that it accepts, and the expression rolls what the dice find; no die asks
for more words than are listed and the sequence has states.  For every number
of sides each cycle of the sequence has a word that is accepted. -/
theorem roll_ends {s : String} (he : parse s = .ok e) (words : List UInt32) (fill : UInt64) :
    (∃ faces rest, Draws e.dieSides (ListedSource.mk words fill) faces rest ∧
      ∀ patience, words.length + UInt64.size ≤ patience →
        e.roll patience (ListedSource.mk words fill) = some (e.dealt faces, rest)) ∧
    ∀ sides : UInt32, 1 ≤ sides → ∀ (start : UInt64) (period : Nat), 0 < period →
      Congruential.step^[period] start = start →
        ∃ n, n < period ∧
          (Die.faceOf? sides (Congruential.word (Congruential.step^[n] start))).isSome := by
  obtain ⟨-, -, hlimits⟩ := wellFormed_of_parse he
  constructor
  -- The least patience that is enough fixes the faces and the rest.
  · obtain ⟨r, rest, hroll, -⟩ := succeeds_roll hlimits (words.length + UInt64.size)
      (ListedSource.mk words fill) (Nat.le_refl _)
    obtain ⟨faces, hdraws, rfl⟩ := draws_of_roll hroll
    refine ⟨faces, rest, hdraws, fun patience hpatience => ?_⟩
    -- A larger patience has a roll too, and there is only one.
    obtain ⟨r, rest', hroll', -⟩ :=
      succeeds_roll hlimits patience (ListedSource.mk words fill) hpatience
    rw [hroll', (outcome_of_draws hdraws).only patience _ hroll']
  · intro sides hone start period hpos hcycle
    exact Die.exists_accepted_of_cycle (Die.ne_zero_of_one_le hone) hpos hcycle

/-- Two dice with one side, which reject the listed word and then the first word
of the sequence. -/
theorem roll_ends_after_rejected_words :
    parse "2d1 + 3" = .ok ⟨[.dice ⟨2, 1, .positive⟩, .constant ⟨3⟩]⟩ ∧
      Die.faceOf? 1 0xFFFFFFFF = none ∧
      Die.faceOf? 1 (Congruential.word (Congruential.step 2)) = none ∧
      ∃ faces rest, Draws [1, 1] (ListedSource.mk [0xFFFFFFFF] 2) faces rest ∧
        ∀ patience, 1 + UInt64.size ≤ patience →
          roll patience ⟨[.dice ⟨2, 1, .positive⟩, .constant ⟨3⟩]⟩ (ListedSource.mk [0xFFFFFFFF] 2)
            = some (dealt ⟨[.dice ⟨2, 1, .positive⟩, .constant ⟨3⟩]⟩ faces, rest) := by
  have hdisplay : display ⟨[.dice ⟨2, 1, .positive⟩, .constant ⟨3⟩]⟩ = "2d1 + 3" := by decide
  have hparse : parse "2d1 + 3" = .ok ⟨[.dice ⟨2, 1, .positive⟩, .constant ⟨3⟩]⟩ := by
    rw [← hdisplay]
    exact parse_display_of_wellFormed (by decide)
  obtain ⟨hroll, -⟩ := roll_ends hparse [0xFFFFFFFF] 2
  exact ⟨hparse, by decide, by decide, hroll⟩

end Expression

end TabletopDice
