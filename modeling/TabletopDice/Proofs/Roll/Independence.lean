/-
  TabletopDice.Proofs.Roll.Independence
  ──────────────────────────────────────
  **SIGNS AND CONSTANTS NEVER INFLUENCE THE DICE.**

  Two expressions with the same dice in the same order, whatever their signs
  and whatever constants stand between them, take the same words from one
  source and throw the same faces.  The dice of an expression are a list of
  numbers of sides that signs and constants leave no trace in, so there is one
  run of the dice and two ways to deal out what they showed.

    • `Draws.exists_takes` — the words that dice draw, each of them accepted
      or rejected by the die whose turn it is,
    • `Expression.dieSides_eq_of_shapes` — the dice that are thrown,
    • `Expression.groupFaces_dealt` — every group shows its hand of faces
      under its sign,
    • `Expression.same_throws_of_shapes` — the two rolls side by side.
-/
import Mathlib.Algebra.Ring.Nat
import Mathlib.Data.List.SplitLengths
import TabletopDice.Proofs.Roll.Draws
import TabletopDice.Random.Congruential

namespace TabletopDice

/-! ## §1. The words that dice take. -/

/-- **The dice take the words from left to right.**  The die whose turn it is
shows the face of a word that it accepts, and makes way for the next die; a
word that it rejects is counted and forgotten. -/
inductive Takes : (dice words faces : List UInt32) → (rejected : Nat) → Prop
  | done : Takes [] [] [] 0
  | accepted {sides word face : UInt32} {dice words faces : List UInt32} {rejected : Nat} :
      Die.faceOf? sides word = some face → Takes dice words faces rejected →
      Takes (sides :: dice) (word :: words) (face :: faces) rejected
  | rejected {sides word : UInt32} {dice words faces : List UInt32} {rejected : Nat} :
      Die.faceOf? sides word = none → Takes (sides :: dice) words faces rejected →
      Takes (sides :: dice) (word :: words) faces (rejected + 1)

/-- **One word for each die, and the rejected ones.** -/
theorem Takes.length_words {dice words faces : List UInt32} {rejected : Nat}
    (h : Takes dice words faces rejected) : words.length = dice.length + rejected := by
  -- Every word either makes way for the next die or is counted as rejected.
  induction h with
  | done => rfl
  | accepted _ _ ih =>
      simp only [List.length_cons, ih]
      omega
  | rejected _ _ ih =>
      rw [List.length_cons, ih]
      omega

section Sources

variable {σ : Type} [WordSource σ]

/-- The source hands out these words, in order, and is left as `rest`. -/
inductive Supplies : (source : σ) → (words : List UInt32) → (rest : σ) → Prop
  | nothing {source : σ} : Supplies source [] source
  | word {source rest : σ} {words : List UInt32} :
      Supplies (WordSource.next source).2 words rest →
      Supplies source ((WordSource.next source).1 :: words) rest

/-- A tap counts the words that it hands out. -/
theorem Supplies.drawn_eq {tap rest : Tap σ} {words : List UInt32}
    (h : Supplies tap words rest) : rest.drawn = tap.drawn + words.length := by
  induction h with
  | nothing => rfl
  | @word tap rest words _ ih =>
      have hnext : (WordSource.next tap).2.drawn = tap.drawn + 1 := rfl
      simp [ih, hnext]
      omega

/-- A die that finds its face takes the words up to the accepted one, in front
of those that the other dice take. -/
theorem Die.Finds.exists_takes {sides face : UInt32} {source between rest : σ}
    (h : Finds sides source face between) {dice words faces : List UInt32} {rejected : Nat}
    (hs : Supplies between words rest) (ht : Takes dice words faces rejected) :
    ∃ words' rejected', Supplies source words' rest ∧
      Takes (sides :: dice) words' (face :: faces) rejected' := by
  -- Along the words of the die, from the rejected ones in front to the accepted one.
  induction h with
  | accepted hface => exact ⟨_, rejected, .word hs, .accepted hface ht⟩
  | rejected hnone _ ih =>
      obtain ⟨words', rejected', hs', ht'⟩ := ih hs
      exact ⟨_, rejected' + 1, .word hs', .rejected hnone ht'⟩

/-- **What dice draw are words that the source supplies and the dice take.** -/
theorem Draws.exists_takes {dice faces : List UInt32} {source rest : σ}
    (h : Draws dice source faces rest) :
    ∃ words rejected, Supplies source words rest ∧ Takes dice words faces rejected := by
  induction h with
  | done => exact ⟨[], 0, .nothing, .done⟩
  | die hfinds _ ih =>
      obtain ⟨words, rejected, hs, ht⟩ := ih
      exact hfinds.exists_takes hs ht

end Sources

/-! ## §2. The groups of an expression. -/

namespace Dice

/-- The number of dice and the number of sides: a group without its sign. -/
def shape (d : Dice) : UInt32 × UInt32 := (d.count, d.sides)

/-- What a group shows when its dice fall on these faces: each face under the
sign of the group. -/
def signed (d : Dice) (hand : List UInt32) : List Int64 :=
  hand.map fun face => d.sign.apply face.toUInt64.toInt64

/-- **The sign changes no distance from zero.** -/
theorem natAbs_signed (d : Dice) (hand : List UInt32) :
    (d.signed hand).map (fun v => v.toInt.natAbs) = hand.map UInt32.toNat := by
  -- Face by face: under a plus sign the face is itself, under a minus sign its negation.
  unfold signed
  rw [List.map_map]
  refine List.map_congr_left fun face _ => ?_
  show (d.sign.apply face.toUInt64.toInt64).toInt.natAbs = face.toNat
  rw [Sign.toInt_apply_face]
  cases d.sign <;> simp [Sign.times]

end Dice

/-- The group of dice that a term is, if it is one. -/
def Term.dice? : Term → Option Dice
  | .dice d => some d
  | .constant _ => none

/-- What the groups of dice showed, without what the constants showed. -/
def Roll.groupFaces (r : Roll) : List (List Int64) :=
  r.parts.filterMap fun p => p.term.dice?.map fun _ => p.faces

namespace Expression

/-- The groups of dice of an expression, in order. -/
def groups (e : Expression) : List Dice := e.terms.filterMap Term.dice?

/-- The number of dice of each group. -/
def counts (e : Expression) : List Nat := e.groups.map fun d => d.count.toNat

/-- **Constants throw no dice.** -/
theorem dieSides_eq_flatMap_groups (e : Expression) :
    e.dieSides = e.groups.flatMap fun d => List.replicate d.count.toNat d.sides := by
  obtain ⟨ts⟩ := e
  -- Along the terms, of which a constant adds no die and is no group.
  induction ts with
  | nil => rfl
  | cons t ts ih =>
      cases t with
      | dice d => exact congrArg (List.replicate d.count.toNat d.sides ++ ·) ih
      | constant c => exact ih

/-- There are as many dice as the groups count. -/
theorem length_dieSides_eq_sum_counts (e : Expression) :
    e.dieSides.length = e.counts.sum := by
  rw [dieSides_eq_flatMap_groups]
  simp [counts, List.length_flatMap]

section Shapes

variable {e e' : Expression} (h : e.groups.map Dice.shape = e'.groups.map Dice.shape)
include h

/-- **The same shapes throw the same dice.** -/
theorem dieSides_eq_of_shapes : e.dieSides = e'.dieSides := by
  -- The dice of a group are read off its shape alone.
  have hshape : ∀ ds : List Dice,
      ds.flatMap (fun d => List.replicate d.count.toNat d.sides)
        = (ds.map Dice.shape).flatMap fun s => List.replicate s.1.toNat s.2 := by
    intro ds
    simp [List.flatMap_map, Dice.shape]
  rw [dieSides_eq_flatMap_groups, dieSides_eq_flatMap_groups, hshape, hshape, h]

theorem counts_eq_of_shapes : e.counts = e'.counts := by
  have hshape : ∀ ds : List Dice,
      ds.map (fun d => d.count.toNat) = (ds.map Dice.shape).map fun s => s.1.toNat := by
    intro ds
    simp [Dice.shape]
  unfold counts
  rw [hshape, hshape, h]

end Shapes

/-! ## §3. Hands of faces. -/

/-- **Every group shows its own faces under its own sign**, and a constant
takes none of them. -/
theorem groupFaces_dealt (e : Expression) (faces : List UInt32) :
    (e.dealt faces).groupFaces
      = List.zipWith Dice.signed e.groups (e.counts.splitLengths faces) := by
  obtain ⟨ts⟩ := e
  show (deal ts faces).filterMap _ = _
  -- Along the terms, for all faces: a group takes its hand off the front, a constant
  -- leaves them for the next term.
  induction ts generalizing faces with
  | nil => rfl
  | cons t ts ih =>
      cases t with
      | dice d =>
          have hlength : (Term.dice d).dieSides.length = d.count.toNat :=
            List.length_replicate
          have hgroups : groups ⟨.dice d :: ts⟩ = d :: groups ⟨ts⟩ := rfl
          have hcounts : counts ⟨.dice d :: ts⟩ = d.count.toNat :: counts ⟨ts⟩ := rfl
          show d.signed (faces.take (Term.dice d).dieSides.length)
              :: (deal ts (faces.drop (Term.dice d).dieSides.length)).filterMap _ = _
          rw [ih, hlength, hgroups, hcounts, List.splitLengths_cons, List.zipWith_cons_cons]
      | constant c => exact ih faces

end Expression

/-- Hands of faces show the same distances from zero, whatever the signs of
the groups that show them. -/
theorem Dice.natAbs_zipWith_signed {ds : List Dice} :
    ∀ {hands : List (List UInt32)}, hands.length = ds.length →
      (List.zipWith signed ds hands).map (List.map fun v => v.toInt.natAbs)
        = hands.map (List.map UInt32.toNat) := by
  -- Along the groups, each with its own hand.
  induction ds with
  | nil =>
      intro hands h
      rw [List.length_eq_zero_iff.1 h]
      rfl
  | cons d ds ih =>
      intro hands h
      obtain ⟨hand, hands, rfl⟩ := List.exists_cons_of_length_eq_add_one h
      have hmore : hands.length = ds.length := Nat.succ.inj h
      simp [natAbs_signed, ih hmore]

/-! ## §4. Two expressions, one source. -/

section Sources

variable {σ : Type} [WordSource σ]

/-- **A roll told by its dice.**  From `tap` the expression rolls `r` and
nothing else, and leaves `rest`; what it draws are `words`, one for each die
and the `rejected` ones; each group has a hand of faces, as many as it has
dice, and shows them under its sign, so at the same distances from zero. -/
structure Roll.Thrown (r : Roll) (e : Expression) (tap : Tap σ) (words : List UInt32)
    (rejected : Nat) (hands : List (List UInt32)) (rest : Tap σ) : Prop where
  rolls : Outcome (fun patience => e.roll patience) tap r rest
  supplies : Supplies tap words rest
  takes : Takes e.dieSides words hands.flatten rejected
  drawn : rest.drawn = tap.drawn + (e.counts.sum + rejected)
  sizes : hands.map List.length = e.counts
  faces : r.groupFaces = List.zipWith Dice.signed e.groups hands
  distances : r.groupFaces.map (List.map fun v => v.toInt.natAbs)
    = hands.map (List.map UInt32.toNat)

namespace Expression

/-- What dice draw, dealt out to their groups, tells the roll. -/
theorem thrown_dealt {e : Expression} {tap rest : Tap σ} {faces words : List UInt32}
    {rejected : Nat} (hdraws : Draws e.dieSides tap faces rest)
    (hsupplies : Supplies tap words rest) (htakes : Takes e.dieSides words faces rejected) :
    (e.dealt faces).Thrown e tap words rejected (e.counts.splitLengths faces) rest := by
  -- The faces fill the hands, with none left over.
  have hlength : faces.length = e.counts.sum := by
    rw [hdraws.length_eq, length_dieSides_eq_sum_counts]
  have hflatten : (e.counts.splitLengths faces).flatten = faces :=
    List.flatten_splitLengths _ _ (Nat.le_of_eq hlength)
  have hhands : (e.counts.splitLengths faces).length = e.groups.length := by
    simp [counts]
  have hfaces := groupFaces_dealt e faces
  refine ⟨outcome_of_draws hdraws, hsupplies, ?_, ?_,
    List.map_splitLengths_length _ _ (Nat.le_of_eq hlength.symm), hfaces, ?_⟩
  -- The hands together are the faces that the dice drew.
  · rw [hflatten]
    exact htakes
  -- One word for each die of a group, and the rejected ones.
  · rw [hsupplies.drawn_eq, htakes.length_words, length_dieSides_eq_sum_counts]
  · rw [hfaces, Dice.natAbs_zipWith_signed hhands]

/-- **SIGNS AND CONSTANTS NEVER INFLUENCE THE DICE.**  Where one expression
rolls, every other with the same shapes of dice rolls from the same source, and
both are told by the same words, the same rejections, the same hands of faces
and the same rest. -/
theorem same_throws_of_shapes {e e' : Expression}
    (hshapes : e.groups.map Dice.shape = e'.groups.map Dice.shape) {patience : Nat}
    {tap rest : Tap σ} {r : Roll} (hr : e.roll patience tap = some (r, rest)) :
    ∃ (r' : Roll) (words : List UInt32) (rejected : Nat) (hands : List (List UInt32)),
      r.Thrown e tap words rejected hands rest ∧ r'.Thrown e' tap words rejected hands rest := by
  obtain ⟨faces, hdraws, rfl⟩ := draws_of_roll hr
  obtain ⟨words, rejected, hsupplies, htakes⟩ := hdraws.exists_takes
  -- One run of the dice stands for both: the words and faces mention no sign and no constant.
  have hdice : e.dieSides = e'.dieSides := dieSides_eq_of_shapes hshapes
  have hcounts : e.counts = e'.counts := counts_eq_of_shapes hshapes
  have hthrown' : (e'.dealt faces).Thrown e' tap words rejected
      (e'.counts.splitLengths faces) rest :=
    thrown_dealt (hdice ▸ hdraws) hsupplies (hdice ▸ htakes)
  rw [← hcounts] at hthrown'
  exact ⟨e'.dealt faces, words, rejected, e.counts.splitLengths faces,
    thrown_dealt hdraws hsupplies htakes, hthrown'⟩

/-- A negative pair, the second die of which rejects a word, and a positive
die; then the signs the other way round, and constants in front and between. -/
theorem same_throws_of_signed_pair :
    ∃ (r' : Roll) (words : List UInt32) (rejected : Nat) (hands : List (List UInt32)),
      (dealt ⟨[.dice ⟨2, 6, .negative⟩, .dice ⟨1, 4, .positive⟩]⟩ [1, 6, 2]).Thrown
          ⟨[.dice ⟨2, 6, .negative⟩, .dice ⟨1, 4, .positive⟩]⟩
          (Tap.fresh (ListedSource.mk [0, 0xFFFFFFFF, 0xEAAAAAAA, 0x40000000] 0))
          words rejected hands ⟨⟨[], 0⟩, 4⟩ ∧
        r'.Thrown
          ⟨[.constant ⟨9⟩, .dice ⟨2, 6, .positive⟩, .constant ⟨-5⟩, .dice ⟨1, 4, .negative⟩]⟩
          (Tap.fresh (ListedSource.mk [0, 0xFFFFFFFF, 0xEAAAAAAA, 0x40000000] 0))
          words rejected hands ⟨⟨[], 0⟩, 4⟩ := by
  have hshapes : (groups ⟨[.dice ⟨2, 6, .negative⟩, .dice ⟨1, 4, .positive⟩]⟩).map Dice.shape
      = (groups ⟨[.constant ⟨9⟩, .dice ⟨2, 6, .positive⟩, .constant ⟨-5⟩,
          .dice ⟨1, 4, .negative⟩]⟩).map Dice.shape := by decide
  have hroll : roll 2 ⟨[.dice ⟨2, 6, .negative⟩, .dice ⟨1, 4, .positive⟩]⟩
      (Tap.fresh (ListedSource.mk [0, 0xFFFFFFFF, 0xEAAAAAAA, 0x40000000] 0))
      = some (dealt ⟨[.dice ⟨2, 6, .negative⟩, .dice ⟨1, 4, .positive⟩]⟩ [1, 6, 2],
          ⟨⟨[], 0⟩, 4⟩) := by decide
  exact same_throws_of_shapes hshapes hroll

end Expression

end Sources

end TabletopDice
