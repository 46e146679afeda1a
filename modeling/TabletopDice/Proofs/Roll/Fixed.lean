/-
  TabletopDice.Proofs.Roll.Fixed
  ──────────────────────────────────────
  **AN ANSWER IS INDEPENDENT OF THE SOURCE EXACTLY WHEN THE BOUNDS COINCIDE.**

  A die with one side has one face.  It draws words until one is accepted, as
  any die does, so what is left of the source may differ; what is rolled may
  not.  A die with more sides leaves room between the bounds of its term, no
  other term takes that room away, and both bounds are rolled on some words.

    • `faces_eq_of_one_sided` — one-sided dice leave no choice of faces,
    • `Dice.sides_eq_one` — a group without room between its bounds,
    • `eq_of_exactSum_map_eq` — room in one term is room in the sum,
    • `Expression.exists_roll_total` — words for a total,
    • `Expression.fixed_tfae` — the equivalence.
-/
import Mathlib.Tactic.TFAE
import TabletopDice.Proofs.Roll.Saturation

namespace TabletopDice

/-! ## §1. Dice with one side. -/

/-- **One-sided dice leave no choice**: each shows the number of its sides. -/
theorem faces_eq_of_one_sided {dice faces : List UInt32} (h : List.Forall₂ Die.Shows faces dice)
    (hone : ∀ sides ∈ dice, sides = 1) : faces = dice := by
  induction h with
  | nil => rfl
  | @cons face sides faces dice hshows _ ih =>
      -- Between one and one there is no other number.
      obtain ⟨hlo, hhi⟩ := hshows
      have hsides : sides = 1 := hone sides List.mem_cons_self
      have hface : face = sides := by
        apply UInt32.toNat.inj
        rw [hsides] at hhi ⊢
        exact Nat.le_antisymm hhi hlo
      rw [hface, ih fun s hs => hone s (List.mem_cons_of_mem sides hs)]

/-- **A group without room between its bounds has one side.** -/
theorem Dice.sides_eq_one {d : Dice} (h : d.WithinLimits) (heq : d.min.toInt = d.max.toInt) :
    d.sides = 1 := by
  obtain ⟨hcount, hmost, -⟩ := h
  have hpos : 1 ≤ d.count.toNat := UInt32.le_iff_toNat_le.1 hcount
  rw [toInt_min hmost, toInt_max hmost] at heq
  -- There is a die at least, so the bounds differ as soon as the faces do.
  have hends : d.lowestFace = d.highestFace := Int.eq_of_mul_eq_mul_left (by omega) heq
  unfold lowestFace highestFace at hends
  apply UInt32.toNat.inj
  show d.sides.toNat = 1
  cases hsign : d.sign with
  | positive =>
      rw [hsign] at hends
      have hone : (1 : Int) = d.sides.toNat := hends
      omega
  | negative =>
      rw [hsign] at hends
      have hone : -(d.sides.toNat : Int) = -1 := hends
      omega

/-! ## §2. Rolls that do not depend on the source. -/

namespace Expression

/-- Every die has one side. -/
def OneSided (e : Expression) : Prop := ∀ d, Term.dice d ∈ e.terms → d.sides = 1

/-- **The source has no say**: any two rolls are the same, with their terms,
faces, subtotals and total, and so with their text, whatever sources they were
rolled over. -/
def Fixed (e : Expression) : Prop :=
  ∀ ⦃σ τ : Type⦄ [WordSource σ] [WordSource τ] ⦃patience patience' : Nat⦄ ⦃source rest : σ⦄
    ⦃source' rest' : τ⦄ ⦃r r' : Roll⦄, e.roll patience source = some (r, rest) →
      e.roll patience' source' = some (r', rest') → r = r'

/-- Any two rolls over listed words have the same total. -/
def FixedTotal (e : Expression) : Prop :=
  ∀ ⦃patience patience' : Nat⦄ ⦃source rest source' rest' : ListedSource⦄ ⦃r r' : Roll⦄,
    e.roll patience source = some (r, rest) → e.roll patience' source' = some (r', rest') →
      r.total = r'.total

/-- No die that is thrown has another side. -/
theorem OneSided.eq_one {e : Expression} (h : e.OneSided) : ∀ sides ∈ e.dieSides, sides = 1 := by
  intro sides hsides
  obtain ⟨t, ht, hmem⟩ := List.mem_flatMap.1 hsides
  cases t with
  | dice d =>
      have hd : sides = d.sides := List.eq_of_mem_replicate hmem
      rw [hd]
      exact h d ht
  | constant c => cases hmem

/-- **One-sided dice leave the source no say.** -/
theorem OneSided.fixed {e : Expression} (h : e.OneSided) : e.Fixed := by
  intro σ τ _ _ patience patience' source rest source' rest' r r' hr hr'
  obtain ⟨faces, hdraws, rfl⟩ := draws_of_roll hr
  obtain ⟨faces', hdraws', rfl⟩ := draws_of_roll hr'
  -- Over both sources the faces are the dice themselves.
  rw [faces_eq_of_one_sided hdraws.shows h.eq_one, faces_eq_of_one_sided hdraws'.shows h.eq_one]

/-! ## §3. Words for a total. -/

section Limits

variable {e : Expression} (hlimits : ∀ t ∈ e.terms, t.WithinLimits) (hfew : e.length ≤ maxTerms)
include hlimits hfew

/-- **Every total between the bounds has a roll** over some listed words. -/
theorem exists_roll_total {total : Int} (hlo : e.min.toInt ≤ total) (hhi : total ≤ e.max.toInt) :
    ∃ patience, ∃ source rest : ListedSource, ∃ r : Roll,
      e.roll patience source = some (r, rest) ∧ r.total.toInt = total := by
  obtain ⟨hmin, hmax⟩ := addsExactly_bounds hlimits hfew
  rw [hmin.total_eq] at hlo
  rw [hmax.total_eq] at hhi
  -- The faces for the total first, then words for the faces, then patience for the words.
  obtain ⟨faces, hfaces, hsum⟩ := exists_deal hlimits total hlo hhi
  have htotal : (e.dealt faces).total.toInt = total :=
    (exact_dealt hlimits hfew hfaces).adds.total_eq.trans hsum
  obtain ⟨words, hwords⟩ := exists_firstTry hfaces
  obtain ⟨patience, hpatience⟩ := (outcome_of_draws (hwords.draws 0 0).untap).settles
  exact ⟨patience, _, _, _, hpatience patience (Nat.le_refl _), htotal⟩

/-- The lowest total has a roll, and the highest. -/
theorem exists_roll_bounds :
    (∃ patience, ∃ source rest : ListedSource, ∃ r : Roll,
      e.roll patience source = some (r, rest) ∧ r.total.toInt = e.min.toInt) ∧
    ∃ patience, ∃ source rest : ListedSource, ∃ r : Roll,
      e.roll patience source = some (r, rest) ∧ r.total.toInt = e.max.toInt := by
  have hends : e.min.toInt ≤ e.max.toInt :=
    Int64.le_iff_toInt_le.1 (min_le_max fun d hd => hlimits (.dice d) hd)
  exact ⟨exists_roll_total hlimits hfew (Int.le_refl _) hends,
    exists_roll_total hlimits hfew hends (Int.le_refl _)⟩

/-- One total for all rolls is both bounds. -/
theorem FixedTotal.min_eq_max (h : e.FixedTotal) : e.min = e.max := by
  obtain ⟨⟨_, _, _, low, hlow, hlowest⟩, _, _, _, high, hhigh, hhighest⟩ :=
    exists_roll_bounds hlimits hfew
  apply Int64.toInt.inj
  rw [← hlowest, ← hhighest, h hlow hhigh]

/-- **Bounds that coincide leave no room in any term.** -/
theorem oneSided_of_min_eq_max (h : e.min = e.max) : e.OneSided := by
  obtain ⟨hmin, hmax⟩ := addsExactly_bounds hlimits hfew
  have hsums : exactSum (e.terms.map Term.min) = exactSum (e.terms.map Term.max) := by
    rw [← hmin.total_eq, ← hmax.total_eq, h]
  -- The bounds of no term are the wrong way round, so equal sums leave no room in any term.
  have hterms := eq_of_exactSum_map_eq (fun t ht => Term.min_le_max (hlimits t ht)) hsums
  intro d hd
  exact Dice.sides_eq_one (hlimits (.dice d) hd) (hterms (.dice d) hd)

/-- The only total there is. -/
theorem total_eq_min {σ : Type} [WordSource σ] {patience : Nat} {source rest : σ} {r : Roll}
    (h : e.min = e.max) (hr : e.roll patience source = some (r, rest)) : r.total = e.min := by
  obtain ⟨faces, hdraws, rfl⟩ := draws_of_roll hr
  -- The total lies between two bounds that are the same.
  obtain ⟨hlo, hhi⟩ := (exact_dealt hlimits hfew hdraws.shows).within
  rw [← h] at hhi
  exact Int64.le_antisymm hhi hlo

end Limits

/-! ## §4. The equivalence. -/

/-- **AN ANSWER IS INDEPENDENT OF THE SOURCE EXACTLY WHEN THE BOUNDS
COINCIDE.**  Of an accepted expression of at most 214748 terms it is the same
to say that its bounds are equal, that each of its dice has one side, that any
two rolls are the same over whatever sources, and that they have the same total
over listed words.  If the bounds are equal there are rolls, and each of them
totals the lowest total. -/
theorem fixed_tfae {s : String} {e : Expression} (he : parse s = .ok e)
    (hfew : e.length ≤ 214748) :
    List.TFAE [e.min = e.max, e.OneSided, e.Fixed, e.FixedTotal] ∧
      (e.min = e.max →
        (∃ patience, ∃ source rest : ListedSource, ∃ r : Roll,
          e.roll patience source = some (r, rest)) ∧
        ∀ {σ : Type} [WordSource σ] {patience : Nat} {source rest : σ} {r : Roll},
          e.roll patience source = some (r, rest) → r.total = e.min) := by
  obtain ⟨-, -, hlimits⟩ := wellFormed_of_parse he
  constructor
  -- Round the circle: no room, so one side; one side, so no choice of faces; the same
  -- roll, so the same total; and the same total at both bounds.
  · tfae_have 1 → 2 := oneSided_of_min_eq_max hlimits hfew
    tfae_have 2 → 3 := OneSided.fixed
    tfae_have 3 → 4 := fun hfixed _ _ _ _ _ _ _ _ hr hr' => congrArg Roll.total (hfixed hr hr')
    tfae_have 4 → 1 := FixedTotal.min_eq_max hlimits hfew
    tfae_finish
  · intro h
    obtain ⟨⟨patience, source, rest, r, hr, -⟩, -⟩ := exists_roll_bounds hlimits hfew
    exact ⟨⟨patience, source, rest, r, hr⟩, total_eq_min hlimits hfew h⟩

/-- One-sided dice of both signs and a constant always total four; two dice
with six sides do not always total the same. -/
theorem fixed_tfae_of_three_one_sided_dice :
    parse "3d1 + 2 - d1"
        = .ok ⟨[.dice ⟨3, 1, .positive⟩, .constant ⟨2⟩, .dice ⟨1, 1, .negative⟩]⟩ ∧
      Fixed ⟨[.dice ⟨3, 1, .positive⟩, .constant ⟨2⟩, .dice ⟨1, 1, .negative⟩]⟩ ∧
      (∀ {patience : Nat} {source rest : ListedSource} {r : Roll},
        roll patience ⟨[.dice ⟨3, 1, .positive⟩, .constant ⟨2⟩, .dice ⟨1, 1, .negative⟩]⟩ source
          = some (r, rest) → r.total = 4) ∧
      parse "2d6" = .ok ⟨[.dice ⟨2, 6, .positive⟩]⟩ ∧
      ¬FixedTotal ⟨[.dice ⟨2, 6, .positive⟩]⟩ := by
  have hone : parse "3d1 + 2 - d1"
      = .ok ⟨[.dice ⟨3, 1, .positive⟩, .constant ⟨2⟩, .dice ⟨1, 1, .negative⟩]⟩ := by decide +kernel
  have hsix : parse "2d6" = .ok ⟨[.dice ⟨2, 6, .positive⟩]⟩ := by decide +kernel
  obtain ⟨hsame, htotal⟩ := fixed_tfae hone (by decide)
  obtain ⟨hdiffer, -⟩ := fixed_tfae hsix (by decide)
  refine ⟨hone, (hsame.out 0 2).1 (by decide), (htotal (by decide)).2, hsix, ?_⟩
  intro hfixed
  exact absurd ((hdiffer.out 3 0).1 hfixed) (by decide)

end Expression

end TabletopDice
