/-
  TabletopDice.Proofs.Roll.Fairness
  ──────────────────────────────────────
  **EVERY GROUP OF DICE IS EXACTLY FAIR.**

  Each face of a die has the same number of words, and the dice of a group
  are thrown one after the other on words of their own.  So the words of a
  group are counted die by die, and no list of faces has more of them than
  another.

    • `ncard_firstTry` — the words of any dice, for any faces they can show,
    • `Dice.rollsFrom_iff` — a group rolls from as many words as it has dice
      just when each die accepts its word at the first try,
    • `Dice.fair` — the two together.
-/
import TabletopDice.Proofs.Random.Faces
import TabletopDice.Proofs.Roll.Counted

namespace TabletopDice

/-! ## §1. Counting the words of many dice. -/

/-- The words of a die and of the dice behind it: one from each. -/
theorem setOf_firstTry_cons {sides face : UInt32} {dice faces : List UInt32} :
    {words | FirstTry (sides :: dice) words (face :: faces)}
      = (fun p : UInt32 × List UInt32 => p.1 :: p.2) ''
        ({word | Die.faceOf? sides word = some face} ×ˢ
          {words | FirstTry dice words faces}) := by
  ext words
  constructor
  · intro h
    cases h with
    | cons hface hmore => exact ⟨(_, _), ⟨hface, hmore⟩, rfl⟩
  · rintro ⟨⟨word, words⟩, ⟨hface, hmore⟩, rfl⟩
    exact .cons hface hmore

/-- **The words of many dice are those of each die, multiplied**, whichever
faces they are to show. -/
theorem ncard_firstTry {dice faces : List UInt32} (h : List.Forall₂ Die.Shows faces dice) :
    {words | FirstTry dice words faces}.ncard = (dice.map Die.share).prod := by
  induction h with
  | nil =>
      have hnil : {words | FirstTry [] words []} = {[]} := by
        ext words
        constructor
        · intro h
          cases h
          rfl
        · rintro rfl
          exact .nil
      rw [hnil, Set.ncard_singleton]
      rfl
  -- The words of the first die and those of the others are chosen freely, so their
  -- numbers are multiplied.
  | @cons face sides faces dice hface _ ih =>
      have hinj : Function.Injective fun p : UInt32 × List UInt32 => p.1 :: p.2 := by
        rintro ⟨word, words⟩ ⟨word', words'⟩ heq
        injection heq with hword hwords
        exact Prod.ext hword hwords
      rw [setOf_firstTry_cons, Set.ncard_image_of_injective _ hinj, Set.ncard_prod,
        Die.ncard_words_of_face hface, ih, List.map_cons, List.prod_cons]

/-! ## §2. The words of a group. -/

namespace Dice

/-- **The group rolls these faces from these words**: it draws each of them
and no other, so it rejects none, and shows the faces under its sign. -/
def RollsFrom (d : Dice) (words faces : List UInt32) : Prop :=
  ∀ fill : UInt64, ∃ p : Part,
    Outcome (fun patience => d.roll patience) (Tap.fresh (ListedSource.mk words fill)) p
        ⟨⟨[], fill⟩, words.length⟩ ∧
      p.faces.map Int64.toInt = faces.map fun face => d.sign.times face.toNat

/-- The faces of a group are the shown ones under its sign, over the integers. -/
theorem toInt_faces_part (d : Dice) (shown : List UInt32) :
    (d.part shown).faces.map Int64.toInt = shown.map fun face => d.sign.times face.toNat := by
  show (shown.map _).map Int64.toInt = _
  rw [List.map_map]
  exact List.map_congr_left fun face _ => d.sign.toInt_apply_face face

/-- Under one sign, different faces are different numbers. -/
theorem times_toNat_injective (s : Sign) :
    Function.Injective fun face : UInt32 => s.times face.toNat := by
  intro face face' heq
  apply UInt32.toNat_inj.1
  cases s with
  | positive => exact Int.ofNat_inj.1 heq
  | negative => exact Int.ofNat_inj.1 (Int.neg_inj.1 heq)

/-- **A group rolls from as many words as it has dice just when each die accepts
its word at the first try.** -/
theorem rollsFrom_iff {d : Dice} {words faces : List UInt32}
    (hlength : words.length = d.count.toNat) :
    d.RollsFrom words faces ↔
      FirstTry (List.replicate d.count.toNat d.sides) words faces := by
  have hdice : words.length = (List.replicate d.count.toNat d.sides).length := by
    rw [List.length_replicate, hlength]
  constructor
  · intro h
    obtain ⟨p, hroll, hfaces⟩ := h 0
    -- A roll is what dice draw, for some faces: those that are shown under the sign.
    obtain ⟨enough, henough⟩ := hroll.settles
    obtain ⟨shown, hdraws, rfl⟩ :=
      Term.draws_of_roll (t := .dice d) (henough enough (Nat.le_refl enough))
    have hshown : shown = faces := by
      apply List.map_injective_iff.2 (times_toNat_injective d.sign)
      rw [← hfaces]
      exact (d.toInt_faces_part shown).symm
    subst hshown
    -- As many words were counted as there are dice, so none can have been rejected.
    refine firstTry_of_draws hdice ?_ hdraws
    show words.length = 0 + _
    rw [Nat.zero_add, hdice]
  · intro h fill
    have hdraws := h.draws fill 0
    rw [Nat.zero_add] at hdraws
    exact ⟨d.part faces, Term.outcome_of_draws (t := .dice d) hdraws, d.toInt_faces_part faces⟩

/-- **EVERY GROUP IS EXACTLY FAIR.**  Whatever faces its dice are to show, as
many lists of words roll them; no accepted word shows any other face; and at
least every second word is accepted. -/
theorem fair {d : Dice} (hsides : 1 ≤ d.sides) :
    (∀ faces : List UInt32, faces.length = d.count.toNat →
        (∀ face ∈ faces, Die.Shows face d.sides) →
        {words | words.length = d.count.toNat ∧ d.RollsFrom words faces}.ncard
          = (2 ^ (Die.leadingZeros d.sides).toNat) ^ d.count.toNat) ∧
      (∀ word face, Die.faceOf? d.sides word = some face → Die.Shows face d.sides) ∧
      UInt32.size ≤ 2 * {word | (Die.faceOf? d.sides word).isSome}.ncard := by
  have hne : d.sides ≠ 0 := Die.ne_zero_of_one_le hsides
  refine ⟨?_, fun word face h => Die.face_between h, Die.size_le_two_mul_ncard_accepted hne⟩
  intro faces hlength hshows
  -- All dice of a group have the same number of sides, and so the same share of words.
  have hforall : List.Forall₂ Die.Shows faces (List.replicate d.count.toNat d.sides) :=
    hlength ▸ Die.shows_replicate hshows
  -- Rolling the faces is accepting each word at the first try; the length follows from that.
  have hwords : {words | words.length = d.count.toNat ∧ d.RollsFrom words faces}
      = {words | FirstTry (List.replicate d.count.toNat d.sides) words faces} := by
    ext words
    constructor
    · rintro ⟨hwords, h⟩
      exact (rollsFrom_iff hwords).1 h
    · intro h
      have hwords := h.length_eq
      rw [List.length_replicate] at hwords
      exact ⟨hwords, (rollsFrom_iff hwords).2 h⟩
  rw [hwords, ncard_firstTry hforall, List.map_replicate, List.prod_replicate]
  rfl

/-- Two negative dice of six sides, both faces at the ends. -/
theorem fair_two_negative_dice :
    (1 : UInt32) ≤ 6 ∧
      {words | words.length = 2 ∧ RollsFrom ⟨2, 6, .negative⟩ words [6, 1]}.ncard
        = (2 ^ 29) ^ 2 := by
  have hsides : (1 : UInt32) ≤ (Dice.mk 2 6 .negative).sides := by decide
  have hshows : ∀ face ∈ [6, 1], Die.Shows face 6 := by
    simp [Die.Shows]
  exact ⟨hsides, (fair hsides).1 [6, 1] rfl hshows⟩

end Dice

end TabletopDice
