/-
  TabletopDice.Proofs.Roll.Saturation
  ──────────────────────────────────────
  **BOUNDS HELD AT THE ENDS OF THE RANGE STAY SOUND.**

  Constants of any size, in any number and order, drive the bounds of an
  expression to an end of the 64-bit range and back again.  A bound that was
  held there is no longer the sum of the bounds of the terms, and no equation
  tells where it is.  It is still on its side of every roll: the subtotals
  keep to the bounds of their terms, and adding with a hold is monotone from
  the first step to the last.  A roll whose own sums all fit is added without
  any hold, so that its total is the one the bounds were compared with.

    • `saturating_totals_between` — the sums, all of them held,
    • `Expression.min_le_max` — the bounds of an expression,
    • `Expression.withinBounds_dealt` — the total, when its own sums fit,
    • `Expression.saturated_bounds_sound` — the bounds and any roll.
-/
import TabletopDice.Proofs.Roll.Attainment

namespace TabletopDice

/-! ## §1. Sums of bounds and subtotals. -/

/-- **Sums of subtotals lie between sums of bounds**, also when all three of
them were held at an end on the way. -/
theorem saturating_totals_between {parts : List Part} (h : ∀ p ∈ parts, p.WithinBounds) :
    Between (Saturating.sum ((parts.map Part.term).map Term.min))
      (Saturating.sum ((parts.map Part.term).map Term.max))
      (Saturating.sum (parts.map Part.total)) := by
  -- Adding with a hold is monotone, so bounds of the parts carry over to the sums.
  rw [List.map_map, List.map_map]
  constructor
  · exact saturating_sum_map_le fun p hp => Int64.le_iff_toInt_le.1 (h p hp).1
  · exact saturating_sum_map_le fun p hp => Int64.le_iff_toInt_le.1 (h p hp).2

/-! ## §2. Any roll. -/

namespace Expression

/-- **The lowest total is not above the highest**, wherever the two are held. -/
theorem min_le_max {e : Expression} (h : ∀ d, Term.dice d ∈ e.terms → d.WithinLimits) :
    e.min ≤ e.max :=
  -- A constant is both of its own bounds, whatever its size; only dice need their limits.
  saturating_sum_map_le fun _ ht => Term.min_le_max_of_dice fun d hd => h d (hd ▸ ht)

/-- The total of a roll keeps to the bounds when its own sums fit. -/
theorem withinBounds_dealt {e : Expression} {faces : List UInt32}
    (h : ∀ d, Term.dice d ∈ e.terms → d.WithinLimits)
    (hfaces : List.Forall₂ Die.Shows faces e.dieSides)
    (hfits : PartialSumsFit (e.dealt faces).subtotals) : (e.dealt faces).WithinBounds e := by
  -- Each part keeps to the bounds of its term, whatever size the constants are.
  have hparts : ∀ p ∈ deal e.terms faces, p.WithinBounds :=
    forall_mem_deal (fun t ht _ hshown =>
      Term.withinBounds_part (fun d hd => h d (hd ▸ ht)) hshown) hfaces
  have hbetween := saturating_totals_between hparts
  -- Where the sums fit there is no difference between holding and wrapping.
  have htotal : Saturating.sum ((deal e.terms faces).map Part.total) = (e.dealt faces).total :=
    saturating_sum_eq_wrapping_sum hfits
  rw [terms_deal, htotal] at hbetween
  exact hbetween

/-- **SATURATING BOUNDS STAY SOUND.**  However large the constants of an
expression are, as long as its dice are within the limits: its lowest total is
not above its highest; every roll of which all sums of subtotals fit, from the
left, totals something between them; and a bound of which all such sums fit is
the sum of the bounds of the terms. -/
theorem saturated_bounds_sound {e : Expression}
    (h : ∀ d, Term.dice d ∈ e.terms → d.WithinLimits) :
    e.min ≤ e.max ∧
      (∀ {σ : Type} [WordSource σ] {patience : Nat} {source rest : σ} {r : Roll},
        e.roll patience source = some (r, rest) → PartialSumsFit r.subtotals →
          e.min ≤ r.total ∧ r.total ≤ e.max) ∧
      (PartialSumsFit (e.terms.map Term.min) →
        e.min.toInt = exactSum (e.terms.map Term.min)) ∧
      (PartialSumsFit (e.terms.map Term.max) →
        e.max.toInt = exactSum (e.terms.map Term.max)) := by
  refine ⟨min_le_max h, ?_, ?_, ?_⟩
  · intro σ _ patience source rest r hroll hfits
    -- A roll is the faces that its dice drew, and drawn faces are faces of their dice.
    obtain ⟨faces, hdraws, rfl⟩ := draws_of_roll hroll
    exact withinBounds_dealt h hdraws.shows hfits
  · intro hfits
    exact (addsExactly_saturating hfits).total_eq
  · intro hfits
    exact (addsExactly_saturating hfits).total_eq

/-- A die behind a constant close to the end of the range: the highest total
is held there, and a constant below zero leads back from it.  The roll that
reaches the end, and does not pass it, totals just that bound. -/
theorem saturated_bounds_sound_at_the_end :
    ∃ e : Expression, e.terms
        = [.constant ⟨9223372036854775804⟩, .dice ⟨1, 6, .positive⟩, .constant ⟨-10⟩] ∧
      exactSum (e.terms.map Term.max) = 9223372036854775800 ∧
      e.max = 9223372036854775797 ∧
      e.min ≤ e.max ∧
      e.min.toInt = exactSum (e.terms.map Term.min) ∧
      ∃ r rest, e.roll 1 (ListedSource.mk [0x60000000] 0) = some (r, rest) ∧
        PartialSumsFit r.subtotals ∧ r.total = e.max ∧ e.min ≤ r.total ∧ r.total ≤ e.max := by
  let e : Expression :=
    ⟨[.constant ⟨9223372036854775804⟩, .dice ⟨1, 6, .positive⟩, .constant ⟨-10⟩]⟩
  have hdice : ∀ d, Term.dice d ∈ e.terms → d.WithinLimits := by
    intro d hd
    have hd : d = ⟨1, 6, .positive⟩ := by simpa [e] using hd
    rw [hd]
    decide
  obtain ⟨hends, hroll, hmin, -⟩ := saturated_bounds_sound hdice
  have hthree : e.roll 1 (ListedSource.mk [0x60000000] 0) = some (e.dealt [3], ⟨[], 0⟩) := by
    decide
  have hfits : PartialSumsFit (e.dealt [3]).subtotals := by decide
  exact ⟨e, rfl, by decide, by decide, hends, hmin (by decide), _, _, hthree, hfits, by decide,
    hroll hthree hfits⟩

end Expression

end TabletopDice
