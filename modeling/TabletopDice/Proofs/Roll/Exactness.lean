/-
  TabletopDice.Proofs.Roll.Exactness
  ──────────────────────────────────────
  **A ROLL OF A NOTATION IS EXACT: what is shown, added and bounded.**

  Rolls add up in 64 bits, and bounds are held at the ends of that range.
  Neither shows as long as there are few terms: a subtotal stays within
  `largestSubtotal`, and the sums of `maxTerms` of those still fit.  A text of
  400000 bytes has no room for more terms than that.

    • `Dice.exact_part`, `Constant.exact_roll` — one term, from its limits,
    • `Roll.exact_ofParts` — from exact parts to the whole roll,
    • `Expression.exact_dealt` — every face the dice can show.
-/
import TabletopDice.Proofs.Grammar.RoundTrip
import TabletopDice.Proofs.Roll.Draws
import TabletopDice.Proofs.Word.ExactSum
import TabletopDice.Random.Congruential
import TabletopDice.Roll.Audit

namespace TabletopDice

/-! ## §1. What it means for a roll to be exact. -/

/-- **The faces are those of the term**: a group shows one face for each of
its dice, from its lowest to its highest, and a constant shows its value. -/
def Part.ShowsTerm (p : Part) : Prop :=
  match p.term with
  | .dice d =>
      p.faces.length = d.count.toNat ∧
        ∀ v ∈ p.faces, d.lowestFace ≤ v.toInt ∧ v.toInt ≤ d.highestFace
  | .constant c => p.faces = [c.value]

/-- A part shows its term, its total is the sum of its faces over the
integers, and keeps to the bounds of the term. -/
structure Part.Exact (p : Part) : Prop where
  shows : p.ShowsTerm
  adds : AddsExactly p.faces p.total
  within : p.WithinBounds

/-- **The roll of an expression is exact**: it has one part for each term and
in the same order, every part is exact, its total and the bounds of the
expression are sums over the integers, and the total keeps to the bounds. -/
structure Roll.Exact (r : Roll) (e : Expression) : Prop where
  terms : r.terms = e.terms
  parts : ∀ p ∈ r.parts, p.Exact
  adds : AddsExactly r.subtotals r.total
  lowest : AddsExactly (e.terms.map Term.min) e.min
  highest : AddsExactly (e.terms.map Term.max) e.max
  within : r.WithinBounds e

/-- The largest distance of a subtotal from zero. -/
def largestSubtotal : Nat := maxCount.toNat * Reader.maxNumber

/-- As many terms as fit when each has the largest subtotal. -/
def maxTerms : Nat := 214748

/-- **So many of the largest subtotals still fit 64 bits.** -/
theorem fits_maxTerms_mul_largestSubtotal : Fits (maxTerms * largestSubtotal : Nat) := by
  decide

/-! ## §2. Bounds of a term. -/

/-- **The bounds of a term are no farther from zero than any subtotal.** -/
theorem Term.natAbs_bounds_le {t : Term} (h : t.WithinLimits) :
    t.min.toInt.natAbs ≤ largestSubtotal ∧ t.max.toInt.natAbs ≤ largestSubtotal := by
  cases t with
  | dice d =>
      obtain ⟨-, hcount, -⟩ := (h : d.WithinLimits)
      have hle : d.count.toNat ≤ maxCount.toNat := UInt32.le_iff_toNat_le.1 hcount
      have hlt : d.sides.toNat < UInt32.size := d.sides.toNat_lt
      have hmax : Reader.maxNumber = UInt32.size - 1 := rfl
      have hproduct : ∀ n : Nat, n ≤ Reader.maxNumber →
          d.count.toNat * n ≤ largestSubtotal := fun n hn => Nat.mul_le_mul hle hn
      have hone := hproduct 1 (by decide)
      have hside := hproduct d.sides.toNat (by omega)
      show d.min.toInt.natAbs ≤ _ ∧ d.max.toInt.natAbs ≤ _
      rw [Dice.toInt_min hcount, Dice.toInt_max hcount, Int.natAbs_mul, Int.natAbs_mul,
        Int.natAbs_natCast]
      -- Under a minus sign the two bounds change places.
      unfold Dice.lowestFace Dice.highestFace
      cases d.sign with
      | positive => exact ⟨hone, hside⟩
      | negative =>
          rw [show Int.natAbs (-(d.sides.toNat : Int)) = d.sides.toNat by omega]
          exact ⟨hside, hone⟩
  | constant c =>
      obtain ⟨-, hlt⟩ := (h : c.WithinLimits)
      have hlarge : UInt32.size ≤ largestSubtotal := by decide
      show c.value.toInt.natAbs ≤ _ ∧ c.value.toInt.natAbs ≤ _
      omega

/-- So is every total between the bounds. -/
theorem Part.natAbs_total_le {p : Part} (h : p.Exact) (ht : p.term.WithinLimits) :
    p.total.toInt.natAbs ≤ largestSubtotal := by
  obtain ⟨hmin, hmax⟩ := Term.natAbs_bounds_le ht
  obtain ⟨hlo, hhi⟩ := h.within
  rw [Int64.le_iff_toInt_le] at hlo hhi
  omega

/-! ## §3. One term. -/

namespace Dice

/-- A face of one die, under the sign of the group. -/
theorem face_between {d : Dice} {face : UInt32} (h : Die.Shows face d.sides) :
    d.lowestFace ≤ (d.sign.apply face.toUInt64.toInt64).toInt ∧
      (d.sign.apply face.toUInt64.toInt64).toInt ≤ d.highestFace := by
  obtain ⟨hlo, hhi⟩ := h
  rw [Sign.toInt_apply_face]
  unfold lowestFace highestFace
  cases d.sign with
  | positive =>
      show 1 ≤ (face.toNat : Int) ∧ (face.toNat : Int) ≤ d.sides.toNat
      omega
  | negative =>
      show -(d.sides.toNat : Int) ≤ -face.toNat ∧ -(face.toNat : Int) ≤ -1
      omega

/-- No face is farther from zero than the number of sides. -/
theorem natAbs_face_le {d : Dice} {v : Int64} (hlo : d.lowestFace ≤ v.toInt)
    (hhi : v.toInt ≤ d.highestFace) : v.toInt.natAbs ≤ Reader.maxNumber := by
  have hlt : d.sides.toNat < UInt32.size := d.sides.toNat_lt
  have hmax : Reader.maxNumber = UInt32.size - 1 := rfl
  have hlowest := d.neg_sides_le_lowestFace
  have hhighest := d.highestFace_le_sides
  omega

/-- **A group within the limits rolls an exact part.** -/
theorem exact_part {d : Dice} (h : d.WithinLimits) {shown : List UInt32}
    (hshown : List.Forall₂ Die.Shows shown (List.replicate d.count.toNat d.sides)) :
    (d.part shown).Exact := by
  obtain ⟨-, hcount, -⟩ := h
  have hle : d.count.toNat ≤ maxCount.toNat := UInt32.le_iff_toNat_le.1 hcount
  have hlength : (d.part shown).faces.length = d.count.toNat := by
    show (shown.map _).length = _
    rw [List.length_map, hshown.length_eq, List.length_replicate]
  -- Every face is one of the dice, put under the sign of the group.
  have hfaces : ∀ v ∈ (d.part shown).faces,
      d.lowestFace ≤ v.toInt ∧ v.toInt ≤ d.highestFace := by
    intro v hv
    obtain ⟨face, hmem, rfl⟩ := List.mem_map.1 hv
    exact face_between (Die.shows_of_mem hshown face hmem)
  have hadds : AddsExactly (d.part shown).faces (d.part shown).total := by
    -- No face is larger than the largest number, and there are `count` faces.
    refine addsExactly_wrapping (fits_of_bounded
      (fun v hv => natAbs_face_le (hfaces v hv).1 (hfaces v hv).2) ?_)
    have hall : d.count.toNat * Reader.maxNumber ≤ largestSubtotal :=
      Nat.mul_le_mul_right _ hle
    have hfits : Fits (largestSubtotal : Nat) := by decide
    rw [hlength]
    exact hfits.of_le hall
  refine ⟨⟨hlength, hfaces⟩, hadds, ?_⟩
  -- The bounds of the term are its lowest and its highest face, `count` times.
  have hbetween := exactSum_between hfaces
  rw [hlength, ← toInt_min hcount, ← toInt_max hcount, ← hadds.total_eq,
    ← Int64.le_iff_toInt_le, ← Int64.le_iff_toInt_le] at hbetween
  exact hbetween

end Dice

/-- **A constant is exact.** -/
theorem Constant.exact_roll {c : Constant} (h : c.WithinLimits) : c.roll.Exact := by
  have hvalue : ∀ v ∈ [c.value], v.toInt.natAbs ≤ UInt32.size := by
    intro v hv
    rw [List.mem_singleton.1 hv]
    exact Nat.le_of_lt h.2
  have hfits : PartialSumsFit [c.value] := by
    refine fits_of_bounded hvalue ?_
    rw [List.length_singleton]
    decide
  have htotal : c.value.toInt = exactSum [c.value] := by
    rw [exactSum_cons, exactSum_nil, Int.add_zero]
  exact ⟨rfl, ⟨htotal, hfits⟩, Int64.le_refl _, Int64.le_refl _⟩

/-- Both kinds of terms. -/
theorem Term.exact_part {t : Term} (h : t.WithinLimits) {shown : List UInt32}
    (hshown : List.Forall₂ Die.Shows shown t.dieSides) : (t.part shown).Exact := by
  cases t with
  | dice d => exact Dice.exact_part h hshown
  | constant c => exact Constant.exact_roll h

/-- **A constant of any value is its own bounds**, so only the dice of a term
need their limits to keep to the bounds. -/
theorem Term.withinBounds_part {t : Term} (h : ∀ d, t = .dice d → d.WithinLimits)
    {shown : List UInt32} (hshown : List.Forall₂ Die.Shows shown t.dieSides) :
    (t.part shown).WithinBounds := by
  cases t with
  | dice d => exact (Dice.exact_part (h d rfl) hshown).within
  | constant c => exact ⟨Int64.le_refl _, Int64.le_refl _⟩

/-! ## §4. All terms. -/

/-- Term by term, whatever the faces. -/
theorem exact_of_mem_deal {ts : List Term} (h : ∀ t ∈ ts, t.WithinLimits)
    {faces : List UInt32} (hfaces : List.Forall₂ Die.Shows faces (ts.flatMap Term.dieSides)) :
    ∀ p ∈ deal ts faces, p.Exact :=
  forall_mem_deal (fun t ht _ hshown => Term.exact_part (h t ht) hshown) hfaces

/-- As many subtotals as there may be terms: every sum on the way fits. -/
theorem fits_of_subtotals {values : List Int64} (hfew : values.length ≤ maxTerms)
    (h : ∀ v ∈ values, v.toInt.natAbs ≤ largestSubtotal) : PartialSumsFit values := by
  have hle : values.length * largestSubtotal ≤ maxTerms * largestSubtotal :=
    Nat.mul_le_mul_right _ hfew
  exact fits_of_bounded h (fits_maxTerms_mul_largestSubtotal.of_le hle)

/-- **The bounds of few terms are not held back** at the ends of the range. -/
theorem Expression.addsExactly_bounds {e : Expression}
    (hlimits : ∀ t ∈ e.terms, t.WithinLimits) (hfew : e.length ≤ maxTerms) :
    AddsExactly (e.terms.map Term.min) e.min ∧ AddsExactly (e.terms.map Term.max) e.max := by
  -- The argument is the same for both bounds.
  have hbound : ∀ bound : Term → Int64,
      (∀ t ∈ e.terms, (bound t).toInt.natAbs ≤ largestSubtotal) →
        AddsExactly (e.terms.map bound) (Saturating.sum (e.terms.map bound)) := by
    intro bound h
    refine addsExactly_saturating (fits_of_subtotals ?_ ?_)
    · rw [List.length_map]
      exact hfew
    · intro v hv
      obtain ⟨t, ht, rfl⟩ := List.mem_map.1 hv
      exact h t ht
  exact ⟨hbound Term.min fun t ht => (Term.natAbs_bounds_le (hlimits t ht)).1,
    hbound Term.max fun t ht => (Term.natAbs_bounds_le (hlimits t ht)).2⟩

/-- Each subtotal lies between the bounds of its own term, and so do the
sums. -/
theorem exactSum_totals_between {parts : List Part} (h : ∀ p ∈ parts, p.WithinBounds) :
    exactSum ((parts.map Part.term).map Term.min) ≤ exactSum (parts.map Part.total) ∧
      exactSum (parts.map Part.total) ≤ exactSum ((parts.map Part.term).map Term.max) := by
  rw [List.map_map, List.map_map]
  constructor
  · exact exactSum_map_le fun p hp => Int64.le_iff_toInt_le.1 (h p hp).1
  · exact exactSum_map_le fun p hp => Int64.le_iff_toInt_le.1 (h p hp).2

/-- **Exact parts make an exact roll**, when there are few of them. -/
theorem Roll.exact_ofParts {e : Expression} (hlimits : ∀ t ∈ e.terms, t.WithinLimits)
    (hfew : e.length ≤ maxTerms) {parts : List Part} (hterms : parts.map Part.term = e.terms)
    (hparts : ∀ p ∈ parts, p.Exact) : (Roll.ofParts parts).Exact e := by
  obtain ⟨hmin, hmax⟩ := Expression.addsExactly_bounds hlimits hfew
  have hlength : parts.length = e.length := by
    show _ = e.terms.length
    rw [← hterms, List.length_map]
  have htotal : AddsExactly (parts.map Part.total) (Roll.ofParts parts).total := by
    refine addsExactly_wrapping (fits_of_subtotals ?_ ?_)
    · rw [List.length_map, hlength]
      exact hfew
    · intro v hv
      obtain ⟨p, hp, rfl⟩ := List.mem_map.1 hv
      have hterm : p.term ∈ e.terms := by
        rw [← hterms]
        exact List.mem_map_of_mem hp
      exact Part.natAbs_total_le (hparts p hp) (hlimits p.term hterm)
  -- Over the integers the sums keep the order of the parts, and all of them fit.
  have hbetween := exactSum_totals_between fun p hp => (hparts p hp).within
  rw [hterms, ← hmin.total_eq, ← hmax.total_eq, ← htotal.total_eq,
    ← Int64.le_iff_toInt_le, ← Int64.le_iff_toInt_le] at hbetween
  exact ⟨hterms, hparts, htotal, hmin, hmax, hbetween⟩

namespace Expression

/-- **Every roll of an expression within the limits is exact**, whatever faces
its dice show. -/
theorem exact_dealt {e : Expression} (hlimits : ∀ t ∈ e.terms, t.WithinLimits)
    (hfew : e.length ≤ maxTerms) {faces : List UInt32}
    (hfaces : List.Forall₂ Die.Shows faces e.dieSides) : (e.dealt faces).Exact e :=
  Roll.exact_ofParts hlimits hfew (terms_deal e.terms faces) (exact_of_mem_deal hlimits hfaces)

/-! ## §5. The roll of a notation. -/

/-- **ROLLING A NOTATION IS EXACT.**  When each die finds an accepted word, an
accepted notation of at most 400000 bytes has a roll; it is the only one that
any patience leads to, and it is exact. -/
theorem exact_roll_of_parse {σ : Type} [WordSource σ] {s : String} {e : Expression}
    {source rest : σ} {faces : List UInt32} (hsize : s.utf8ByteSize ≤ 400000)
    (he : parse s = .ok e) (hdraws : Draws e.dieSides source faces rest) :
    ∃ r : Roll, Outcome (fun patience => e.roll patience) source r rest ∧ r.Exact e := by
  have hlength := two_mul_length_le_of_parse he
  have hmax : maxTerms = 214748 := rfl
  obtain ⟨-, -, hlimits⟩ := wellFormed_of_parse he
  -- A term takes two bytes but for the first, so 400000 bytes hold few enough.
  exact ⟨e.dealt faces, outcome_of_draws hdraws,
    exact_dealt hlimits (by omega) hdraws.shows⟩

/-- Two dice, the second of which finds its word after a rejected one, a
negative die and a constant. -/
theorem exact_roll_of_listed_words :
    ∃ r : Roll,
      Outcome (fun patience => roll patience
          ⟨[.dice ⟨2, 6, .positive⟩, .dice ⟨1, 4, .negative⟩, .constant ⟨3⟩]⟩)
        (ListedSource.mk [0, 0xFFFFFFFF, 0xEAAAAAAA, 0x40000000] 0) r ⟨[], 0⟩ ∧
      r.Exact ⟨[.dice ⟨2, 6, .positive⟩, .dice ⟨1, 4, .negative⟩, .constant ⟨3⟩]⟩ := by
  have hdisplay :
      display ⟨[.dice ⟨2, 6, .positive⟩, .dice ⟨1, 4, .negative⟩, .constant ⟨3⟩]⟩
        = "2d6 - 1d4 + 3" := by decide
  have hsize : "2d6 - 1d4 + 3".utf8ByteSize ≤ 400000 := by decide
  have hparse : parse "2d6 - 1d4 + 3" = .ok
      ⟨[.dice ⟨2, 6, .positive⟩, .dice ⟨1, 4, .negative⟩, .constant ⟨3⟩]⟩ := by
    rw [← hdisplay]
    exact parse_display_of_wellFormed (by decide)
  have hfirst : Die.Finds 6 (ListedSource.mk [0, 0xFFFFFFFF, 0xEAAAAAAA, 0x40000000] 0)
      1 ⟨[0xFFFFFFFF, 0xEAAAAAAA, 0x40000000], 0⟩ := .accepted (by decide)
  have hretry : Die.Finds 6 (ListedSource.mk [0xEAAAAAAA, 0x40000000] 0)
      6 ⟨[0x40000000], 0⟩ := .accepted (by decide)
  have hsecond : Die.Finds 6 (ListedSource.mk [0xFFFFFFFF, 0xEAAAAAAA, 0x40000000] 0)
      6 ⟨[0x40000000], 0⟩ := .rejected (by decide) hretry
  have hnegative : Die.Finds 4 (ListedSource.mk [0x40000000] 0) 2 ⟨[], 0⟩ :=
    .accepted (by decide)
  exact exact_roll_of_parse hsize hparse
    (.die hfirst (.die hsecond (.die hnegative .done)))

end Expression

end TabletopDice
