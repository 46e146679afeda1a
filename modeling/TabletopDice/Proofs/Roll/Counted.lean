/-
  TabletopDice.Proofs.Roll.Counted
  ──────────────────────────────────────
  **COUNTING THE WORDS THAT DICE DRAW.**

  A tap counts what is drawn through it and changes nothing else.  Every die
  draws a word at least, and draws one word only when the first is accepted;
  so the count at the end tells whether any word was rejected on the way.

    • `Draws.add_length_le_drawn` — no fewer words than dice,
    • `firstTry_of_draws`, `FirstTry.draws` — as many words as dice: each die
      accepts its word at the first try,
    • `Draws.later`, `Draws.untap` — the count may begin anywhere, and may be
      left out.
-/
import TabletopDice.Proofs.Roll.Draws
import TabletopDice.Random.Congruential

namespace TabletopDice

section Taps

variable {σ : Type}

/-! ## §1. Counting changes nothing. -/

/-- The tap with a number of words already counted. -/
def Tap.later (tap : Tap σ) (counted : Nat) : Tap σ := ⟨tap.source, counted + tap.drawn⟩

variable [WordSource σ]

/-- What was counted before has no say in what is found. -/
theorem Die.Finds.later {sides face : UInt32} {tap rest : Tap σ}
    (h : Finds sides tap face rest) (counted : Nat) :
    Finds sides (tap.later counted) face (rest.later counted) := by
  induction h with
  | accepted hface => exact .accepted hface
  | rejected hnone _ ih => exact .rejected hnone ih

/-- **The same words are drawn wherever the count begins.** -/
theorem Draws.later {dice faces : List UInt32} {tap rest : Tap σ}
    (h : Draws dice tap faces rest) (counted : Nat) :
    Draws dice (tap.later counted) faces (rest.later counted) := by
  induction h with
  | done => exact .done
  | die hfinds _ ih => exact .die (hfinds.later counted) ih

/-- A tap finds what its source finds. -/
theorem Die.Finds.untap {sides face : UInt32} {tap rest : Tap σ}
    (h : Finds sides tap face rest) : Finds sides tap.source face rest.source := by
  induction h with
  | accepted hface => exact .accepted hface
  | rejected hnone _ ih => exact .rejected hnone ih

/-- **The same words are drawn whether or not they are counted.** -/
theorem Draws.untap {dice faces : List UInt32} {tap rest : Tap σ}
    (h : Draws dice tap faces rest) : Draws dice tap.source faces rest.source := by
  induction h with
  | done => exact .done
  | die hfinds _ ih => exact .die hfinds.untap ih

/-! ## §2. One word at least. -/

/-- A die draws a word at least, however many it rejects. -/
theorem Die.Finds.drawn_lt {sides face : UInt32} {tap rest : Tap σ}
    (h : Finds sides tap face rest) : tap.drawn < rest.drawn := by
  induction h with
  | accepted _ => exact Nat.lt_succ_self _
  | rejected _ _ ih => exact Nat.lt_of_succ_lt ih

/-- **Every die draws a word at least.** -/
theorem Draws.add_length_le_drawn {dice faces : List UInt32} {tap rest : Tap σ}
    (h : Draws dice tap faces rest) : tap.drawn + dice.length ≤ rest.drawn := by
  induction h with
  | done => exact Nat.le_refl _
  | die hfinds _ ih =>
      -- One word at least for this die, and by the induction one for each die behind it.
      have hfirst := hfinds.drawn_lt
      rw [List.length_cons]
      omega

/-- A die that draws one word accepts it. -/
theorem Die.Finds.accepted_of_drawn {sides face : UInt32} {tap rest : Tap σ}
    (h : Finds sides tap face rest) (hone : rest.drawn = tap.drawn + 1) :
    faceOf? sides (WordSource.next tap).1 = some face ∧ rest = (WordSource.next tap).2 := by
  cases h with
  | accepted hface => exact ⟨hface, rfl⟩
  | rejected _ hmore =>
      -- The word behind the rejected one would be the second.
      have hsecond : tap.drawn + 1 < rest.drawn := hmore.drawn_lt
      omega

end Taps

/-! ## §3. At the first try. -/

/-- **Every die accepts its word at the first try**, and these are the faces
that it shows. -/
inductive FirstTry : List UInt32 → List UInt32 → List UInt32 → Prop
  | nil : FirstTry [] [] []
  | cons {sides word face : UInt32} {dice words faces : List UInt32} :
      Die.faceOf? sides word = some face → FirstTry dice words faces →
      FirstTry (sides :: dice) (word :: words) (face :: faces)

theorem FirstTry.length_eq {dice words faces : List UInt32} (h : FirstTry dice words faces) :
    words.length = dice.length := by
  induction h with
  | nil => rfl
  | cons _ _ ih => rw [List.length_cons, List.length_cons, ih]

/-- Words that are accepted as they come are drawn, and no others. -/
theorem FirstTry.draws {dice words faces : List UInt32} (h : FirstTry dice words faces)
    (fill : UInt64) (counted : Nat) :
    Draws dice (⟨⟨words, fill⟩, counted⟩ : Tap ListedSource) faces
      ⟨⟨[], fill⟩, counted + words.length⟩ := by
  induction h generalizing counted with
  | nil => exact .done
  -- The dice behind the first are counted from one word further on.
  | @cons sides word face dice words faces hface _ ih =>
      have hmore := ih (counted + 1)
      rw [Nat.add_assoc, Nat.add_comm 1] at hmore
      exact .die (.accepted hface) hmore

/-- **As many words as dice: none was rejected.** -/
theorem firstTry_of_draws {dice : List UInt32} :
    ∀ {words faces : List UInt32} {fill : UInt64} {counted : Nat} {rest : Tap ListedSource},
      words.length = dice.length → rest.drawn = counted + dice.length →
      Draws dice ⟨⟨words, fill⟩, counted⟩ faces rest → FirstTry dice words faces := by
  -- Along the dice, for every list of words and every count: the first die takes
  -- one word off the list and adds one to the count.
  induction dice with
  | nil =>
      intro words faces fill counted rest hlength _ h
      cases h
      rw [List.length_eq_zero_iff.1 hlength]
      exact .nil
  | cons sides dice ih =>
      intro words faces fill counted rest hlength hdrawn h
      cases h with
      | @die _ face _ more _ between _ hfinds hmore =>
          rw [List.length_cons] at hlength hdrawn
          obtain ⟨word, words, rfl⟩ := List.exists_cons_of_length_eq_add_one hlength
          -- The dice behind this one leave it no more than one word.
          have hfirst : counted < between.drawn := hfinds.drawn_lt
          have hothers := hmore.add_length_le_drawn
          have hone : between.drawn = counted + 1 := by omega
          obtain ⟨hface, rfl⟩ := hfinds.accepted_of_drawn hone
          have hwords : words.length = dice.length := Nat.succ.inj hlength
          have hcount : rest.drawn = counted + 1 + dice.length := by omega
          exact .cons hface (ih hwords hcount hmore)

end TabletopDice
