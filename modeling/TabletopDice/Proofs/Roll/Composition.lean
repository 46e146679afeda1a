/-
  TabletopDice.Proofs.Roll.Composition
  ──────────────────────────────────────
  **ROLLING COMPOSES FROM LEFT TO RIGHT OVER ONE SOURCE.**

  Two notations joined by an operator throw the dice of the first and then
  those of the second.  A sign takes no die away and adds none, so the words
  fall to the same dice as in two rolls one after the other, and only the
  first part of the second roll is turned by the operator.

    • `Term.part_apply` — the part of a term behind an operator,
    • `Expression.dealt_join`, `Expression.outcome_join` — the dealt faces and
      the roll of the whole,
    • `Roll.text_join` — its text,
    • `Expression.roll_append_operator` — parsing, rolling and writing
      together.
-/
import TabletopDice.Proofs.Grammar.Composition
import TabletopDice.Proofs.Roll.Counted
import TabletopDice.Proofs.Roll.Exactness
import TabletopDice.Roll.Display

namespace TabletopDice

open Grammar

/-! ## §1. One term behind an operator. -/

/-- The sign that an operator gives. -/
def Operator.sign : Operator → Sign
  | .add => .positive
  | .sub => .negative

/-- A part as it stands after an operator. -/
def Part.under (op : Operator) (p : Part) : Part :=
  ⟨op.apply p.term, p.faces.map op.sign.apply, op.sign.apply p.total⟩

theorem Part.under_add (p : Part) : p.under .add = p := by
  have hfaces : p.faces.map (Operator.sign .add).apply = p.faces := List.map_id p.faces
  unfold under
  rw [hfaces]
  rfl

/-- From zero on, a constant is turned by its negation. -/
theorem Constant.value_negate {c : Constant} (h : 0 ≤ c.value.toInt) :
    c.negate.value = -c.value := by
  have hle := Int64.toInt_le c.value
  apply Int64.toInt_inj.1
  -- Below zero the constant would stay as it is; from zero on its distance is its value.
  rw [toInt_negate, toInt_neg_of_fits (fits_neg_of_nonneg h)]
  omega

/-- **A group turned negative rolls every face and its total turned.** -/
theorem Dice.part_negate {d : Dice} (h : d.sign = .positive) (shown : List UInt32) :
    d.negate.part shown
      = ⟨.dice d.negate, (d.part shown).faces.map (- ·), -(d.part shown).total⟩ := by
  -- The faces are turned one by one, and a sum of turned faces is the turned sum.
  have hfaces : (d.negate.part shown).faces = (d.part shown).faces.map (- ·) := by
    show shown.map _ = (shown.map fun face => d.sign.apply face.toUInt64.toInt64).map _
    rw [h, List.map_map]
    rfl
  show Part.mk _ (d.negate.part shown).faces (Wrapping.sum (d.negate.part shown).faces)
    = Part.mk _ _ (-Wrapping.sum (d.part shown).faces)
  rw [hfaces, Wrapping.sum_map_neg]

namespace Term

/-- **Behind an operator a term rolls its part turned by the operator**, if it
is not negative already. -/
theorem part_apply {t : Term} (hpos : t.isNegative = false) (op : Operator)
    (shown : List UInt32) : (op.apply t).part shown = (t.part shown).under op := by
  cases op with
  | add => exact (Part.under_add _).symm
  | sub =>
      cases t with
      | dice d =>
          -- A group that is not negative has a positive sign.
          have hsign : d.sign = .positive := by
            cases hd : d.sign with
            | positive => rfl
            | negative =>
                have hneg : (dice d).isNegative = true := decide_eq_true hd
                rw [hpos] at hneg
                cases hneg
          exact Dice.part_negate hsign shown
      | constant c =>
          rw [isNegative_constant, decide_eq_false_iff_not, Int.not_lt] at hpos
          show Part.mk _ [c.negate.value] c.negate.value = Part.mk _ [-c.value] (-c.value)
          rw [Constant.value_negate hpos]
          rfl

/-- An operator throws the same dice. -/
theorem dieSides_apply (op : Operator) (t : Term) : (op.apply t).dieSides = t.dieSides := by
  cases op with
  | add => rfl
  | sub =>
      cases t with
      | dice d => rfl
      | constant c => rfl

/-- **A term that is not negative is so behind a minus**, and only there. -/
theorem isNegative_apply {t : Term} (h : t.WithinLimits) (hpos : t.isNegative = false)
    (op : Operator) : (op.apply t).isNegative = decide (op = .sub) := by
  cases op with
  | add => exact hpos
  | sub =>
      cases t with
      | dice d => rfl
      | constant c =>
          -- A constant within its limits is above zero, so it is below zero when turned.
          have hlimits : c.WithinLimits := h
          have hvalue := Constant.toInt_negate_of_withinLimits hlimits
          obtain ⟨hlo, -⟩ := hlimits
          show (constant c.negate).isNegative = true
          rw [isNegative_constant, hvalue]
          exact decide_eq_true (by omega)

end Term

/-! ## §2. The roll of two expressions. -/

/-- The faces of two lists of terms are dealt to the one and then to the
other. -/
theorem deal_append (us : List Term) (faces' : List UInt32) {ts : List Term} :
    ∀ {faces : List UInt32}, faces.length = (ts.flatMap Term.dieSides).length →
      deal (ts ++ us) (faces ++ faces') = deal ts faces ++ deal us faces' := by
  -- Along the terms of the first list: each takes its faces off the front, and what is
  -- left at its end are the faces of the second.
  induction ts with
  | nil =>
      intro faces h
      rw [List.length_eq_zero_iff.1 h]
      rfl
  | cons t ts ih =>
      intro faces h
      rw [List.flatMap_cons, List.length_append] at h
      -- The faces of the first term, and those behind them.
      have htake : (faces.take t.dieSides.length).length = t.dieSides.length := by
        rw [List.length_take]
        omega
      have hdrop : (faces.drop t.dieSides.length).length
          = (ts.flatMap Term.dieSides).length := by
        rw [List.length_drop]
        omega
      rw [← List.take_append_drop t.dieSides.length faces, List.append_assoc, List.cons_append,
        deal_cons_append htake, deal_cons_append htake, ih hdrop, List.cons_append]

/-- **An operator in front of the terms turns the first part.** -/
theorem deal_modifyHead {ts : List Term} (hpos : ∀ t ∈ ts.head?, t.isNegative = false)
    (op : Operator) (faces : List UInt32) :
    deal (ts.modifyHead op.apply) faces = (deal ts faces).modifyHead (Part.under op) := by
  cases ts with
  | nil => rfl
  | cons t ts =>
      show (op.apply t).part _ :: deal ts _ = (t.part _).under op :: deal ts _
      rw [Term.dieSides_apply, Term.part_apply (hpos t rfl)]

/-- A roll, an operator, and another roll. -/
def Roll.join (r : Roll) (op : Operator) (r' : Roll) : Roll :=
  ofParts (r.parts ++ r'.parts.modifyHead (Part.under op))

namespace Expression

/-- **The dice of the whole are those of the two**, in order. -/
theorem dieSides_join (e : Expression) (op : Operator) (e' : Expression) :
    (e.join op e').dieSides = e.dieSides ++ e'.dieSides := by
  obtain ⟨ts⟩ := e'
  show (e.terms ++ ts.modifyHead op.apply).flatMap Term.dieSides = _
  rw [List.flatMap_append]
  cases ts with
  | nil => rfl
  | cons t ts =>
      show _ ++ ((op.apply t).dieSides ++ _) = _
      rw [Term.dieSides_apply]
      rfl

/-- **Dealt faces compose**: the faces of both are dealt as those of each were. -/
theorem dealt_join {e e' : Expression} (hpos : ∀ t ∈ e'.terms.head?, t.isNegative = false)
    (op : Operator) {faces : List UInt32} (hlength : faces.length = e.dieSides.length)
    (faces' : List UInt32) :
    (e.join op e').dealt (faces ++ faces') = (e.dealt faces).join op (e'.dealt faces') := by
  show Roll.ofParts (deal (e.terms ++ e'.terms.modifyHead op.apply) (faces ++ faces')) = _
  rw [deal_append _ _ hlength, deal_modifyHead hpos]
  rfl

section Sources

variable {σ : Type} [WordSource σ]

/-- What an expression rolls, whatever the patience, are the faces that its dice draw. -/
theorem draws_of_outcome {e : Expression} {source rest : σ} {r : Roll}
    (h : Outcome (fun patience => e.roll patience) source r rest) :
    ∃ faces, Draws e.dieSides source faces rest ∧ r = e.dealt faces := by
  obtain ⟨enough, henough⟩ := h.settles
  exact draws_of_roll (henough enough (Nat.le_refl enough))

/-- Rolling goes on alike wherever the count of words begins. -/
theorem outcome_later {e : Expression} {tap rest : Tap σ} {r : Roll}
    (h : Outcome (fun patience => e.roll patience) tap r rest) (counted : Nat) :
    Outcome (fun patience => e.roll patience) (tap.later counted) r (rest.later counted) := by
  obtain ⟨faces, hdraws, rfl⟩ := draws_of_outcome h
  exact outcome_of_draws (hdraws.later counted)

/-- **The whole rolls what the two roll one after the other.** -/
theorem outcome_join {e e' : Expression} (hpos : ∀ t ∈ e'.terms.head?, t.isNegative = false)
    (op : Operator) {source between rest : σ} {r r' : Roll}
    (h : Outcome (fun patience => e.roll patience) source r between)
    (h' : Outcome (fun patience => e'.roll patience) between r' rest) :
    Outcome (fun patience => (e.join op e').roll patience) source (r.join op r') rest := by
  -- The dice of the first draw up to the source between, those of the second from there.
  obtain ⟨faces, hdraws, rfl⟩ := draws_of_outcome h
  obtain ⟨faces', hdraws', rfl⟩ := draws_of_outcome h'
  have hlength := hdraws.length_eq
  rw [← dealt_join hpos op hlength]
  apply outcome_of_draws
  rw [dieSides_join, Draws.append_iff, ← hlength, List.take_left, List.drop_left]
  exact ⟨between, hdraws, hdraws'⟩

end Sources

end Expression

/-! ## §3. What the operator turns. -/

namespace Part

/-- A part of a notation that stands first, so it is not negative. -/
structure Leads (p : Part) : Prop where
  exact : p.Exact
  limits : p.term.WithinLimits
  positive : p.term.isNegative = false

/-- No face is further from zero than the largest number of a notation. -/
theorem natAbs_face_le {p : Part} (h : p.Exact) (ht : p.term.WithinLimits) :
    ∀ v ∈ p.faces, v.toInt.natAbs ≤ Reader.maxNumber := by
  obtain ⟨term, faces, total⟩ := p
  intro v hv
  cases term with
  | dice d =>
      -- A die shows no more than its sides, which are a number of the notation.
      have hshows : faces.length = d.count.toNat ∧
          ∀ v ∈ faces, d.lowestFace ≤ v.toInt ∧ v.toInt ≤ d.highestFace := h.shows
      obtain ⟨hlo, hhi⟩ := hshows.2 v hv
      exact Dice.natAbs_face_le hlo hhi
  | constant c =>
      -- A constant shows its value.
      have hshows : faces = [c.value] := h.shows
      have hmax : Reader.maxNumber = UInt32.size - 1 := rfl
      obtain ⟨-, hlt⟩ : c.WithinLimits := ht
      have hv' : v ∈ faces := hv
      rw [hshows] at hv'
      rw [List.mem_singleton.1 hv']
      omega

/-- **The subtotal is turned over the integers.** -/
theorem toInt_total_under {p : Part} (h : p.Leads) (op : Operator) :
    (p.under op).total.toInt = op.sign.times p.total.toInt := by
  have hle := natAbs_total_le h.exact h.limits
  have hfits : Fits (largestSubtotal : Nat) := by decide
  exact op.sign.toInt_apply (fits_of_natAbs_le (by omega) hfits)

/-- **So is each face.** -/
theorem toInt_faces_under {p : Part} (h : p.Leads) (op : Operator) :
    (p.under op).faces.map Int64.toInt = (p.faces.map Int64.toInt).map op.sign.times := by
  have hfits : Fits (Reader.maxNumber : Nat) := by decide
  show (p.faces.map op.sign.apply).map Int64.toInt = _
  rw [List.map_map, List.map_map]
  refine List.map_congr_left fun v hv => ?_
  have hle := natAbs_face_le h.exact h.limits v hv
  exact op.sign.toInt_apply (fits_of_natAbs_le (by omega) hfits)

/-- **No text changes**, since signs are written between the parts. -/
theorem text_under {p : Part} (h : p.Leads) (op : Operator) : (p.under op).text = p.text := by
  have hfaces := toInt_faces_under h op
  obtain ⟨hexact, hlimits, hpos⟩ := h
  obtain ⟨term, faces, total⟩ := p
  cases op with
  | add => rw [under_add]
  | sub =>
      cases term with
      | dice d =>
          -- Faces are written by their distance from zero, which no sign changes.
          have hbodies : (faces.map (- ·)).map (fun face => Decimal.natural face.toInt.natAbs)
              = faces.map fun face => Decimal.natural face.toInt.natAbs := by
            calc
              _ = ((faces.map (- ·)).map Int64.toInt).map (fun i => Decimal.natural i.natAbs) :=
                List.map_map.symm
              _ = ((faces.map Int64.toInt).map (- ·)).map (fun i => Decimal.natural i.natAbs) :=
                congrArg _ hfaces
              _ = _ := by
                rw [List.map_map, List.map_map]
                refine List.map_congr_left fun v _ => ?_
                show Decimal.natural (-v.toInt).natAbs = _
                rw [Int.natAbs_neg]
          show bracketed (faces.map (- ·)) = bracketed faces
          unfold bracketed
          rw [hbodies]
      | constant c =>
          have hvalue := Constant.toInt_negate_of_withinLimits (c := c) hlimits
          show Decimal.natural c.negate.value.toInt.natAbs = Decimal.natural c.value.toInt.natAbs
          rw [hvalue, Int.natAbs_neg, Int.natAbs_natCast]

/-- **Behind an operator a part is written after the sign**, between
spaces. -/
theorem following_under {p : Part} (h : p.Leads) (op : Operator) :
    SignedSum.following (p.under op).addend = [' ', operatorSign op, ' '] ++ p.text := by
  have hnegative : (p.under op).term.isNegative = decide (op = .sub) :=
    Term.isNegative_apply h.limits h.positive op
  unfold SignedSum.following addend
  rw [hnegative, text_under h]
  cases op with
  | add => rfl
  | sub => rfl

/-- In front of everything the part of a notation is written without a sign. -/
theorem leading_addend {p : Part} (h : p.Leads) : SignedSum.leading p.addend = p.text := by
  unfold SignedSum.leading addend
  rw [h.positive]
  rfl

end Part

namespace Roll

/-- **The first part of a roll of a notation leads.** -/
theorem leads_of_exact {e : Expression} (he : e.WellFormed) {r : Roll} (hr : r.Exact e) :
    ∀ p ∈ r.parts.head?, p.Leads := by
  obtain ⟨-, hpos, hlimits⟩ := he
  intro p hp
  have hmem : p ∈ r.parts := List.mem_of_mem_head? hp
  have hhead : p.term ∈ e.terms.head? := by
    rw [← hr.terms]
    show p.term ∈ (r.parts.map Part.term).head?
    rw [List.head?_map, hp]
    rfl
  exact ⟨hr.parts p hmem, hlimits p.term (List.mem_of_mem_head? hhead), hpos p.term hhead⟩

/-- What the operator does to the first part shows in whatever is read off the
parts. -/
theorem map_modifyHead_under {α : Type} {read : Part → α} {turn : α → α} {parts : List Part}
    {op : Operator} (h : ∀ p ∈ parts.head?, read (p.under op) = turn (read p)) :
    (parts.modifyHead (Part.under op)).map read = (parts.map read).modifyHead turn := by
  cases parts with
  | nil => rfl
  | cons p parts =>
      show read (p.under op) :: parts.map read = turn (read p) :: parts.map read
      rw [h p rfl]

variable {r' : Roll} (hleads : ∀ p ∈ r'.parts.head?, p.Leads)
include hleads

/-- The subtotals of the whole: those of the first, then those of the second, the
first of them turned. -/
theorem toInt_subtotals_join (r : Roll) (op : Operator) :
    (r.join op r').subtotals.map Int64.toInt
      = r.subtotals.map Int64.toInt ++ (r'.subtotals.map Int64.toInt).modifyHead op.sign.times := by
  show ((r.parts ++ _).map Part.total).map Int64.toInt = (r.parts.map _).map _ ++ _
  rw [List.map_map, List.map_append, map_modifyHead_under, subtotals, List.map_map, List.map_map]
  · intro p hp
    exact Part.toInt_total_under (hleads p hp) op

/-- The faces of the whole, likewise. -/
theorem toInt_faces_join (r : Roll) (op : Operator) :
    (r.join op r').faces.map (List.map Int64.toInt)
      = r.faces.map (List.map Int64.toInt)
        ++ (r'.faces.map (List.map Int64.toInt)).modifyHead (List.map op.sign.times) := by
  show ((r.parts ++ _).map Part.faces).map _ = (r.parts.map _).map _ ++ _
  rw [List.map_map, List.map_append, map_modifyHead_under, faces, List.map_map, List.map_map]
  · intro p hp
    exact Part.toInt_faces_under (hleads p hp) op

/-- **The texts are joined by the sign of the operator.** -/
theorem text_join {r : Roll} (hne : r.parts ≠ []) (hne' : r'.parts ≠ []) (op : Operator) :
    (r.join op r').text = r.text ++ [' ', operatorSign op, ' '] ++ r'.text := by
  obtain ⟨p, more, hparts⟩ := List.exists_cons_of_ne_nil hne'
  have hp : p.Leads := hleads p (by rw [hparts]; rfl)
  -- Only the first part of the second text is written anew, behind the sign.
  have hfront : r.parts.map Part.addend ≠ [] := fun hnil => hne (List.map_eq_nil_iff.1 hnil)
  show SignedSum.text ((r.parts ++ r'.parts.modifyHead (Part.under op)).map Part.addend)
    = SignedSum.text _ ++ _ ++ SignedSum.text (r'.parts.map Part.addend)
  rw [List.map_append, SignedSum.text_append hfront, hparts, List.modifyHead_cons, List.map_cons,
    List.map_cons, List.flatMap_cons, SignedSum.text_cons, Part.following_under hp,
    Part.leading_addend hp]
  simp only [List.append_assoc]

end Roll

/-! ## §4. Two notations. -/

namespace Expression

/-- A notation has a term at least, so its roll has a part. -/
theorem parts_ne_nil {e : Expression} (he : e.WellFormed) {r : Roll} (hr : r.Exact e) :
    r.parts ≠ [] := by
  intro hnil
  apply he.1
  rw [← hr.terms, Roll.terms, hnil]
  rfl

/-- Every roll of a notation of few terms is exact. -/
theorem exact_of_outcome {σ : Type} [WordSource σ] {e : Expression} (he : e.WellFormed)
    (hfew : e.length ≤ maxTerms) {source rest : σ} {r : Roll}
    (h : Outcome (fun patience => e.roll patience) source r rest) : r.Exact e := by
  obtain ⟨faces, hdraws, rfl⟩ := draws_of_outcome h
  exact exact_dealt he.2.2 hfew hdraws.shows

/-- **ROLLING COMPOSES AT AN OPERATOR.**  When one notation rolls, and another
rolls from what it left, the two joined by a sign roll from where the first
began: they draw the words of both and leave the same rest, show the parts of
the one and then of the other, the first of these turned by the operator, add
them up exactly, and are written with the sign between the texts. -/
theorem roll_append_operator {σ : Type} [WordSource σ] {a b : String} {e e' : Expression}
    (ha : parse a = .ok e) (hb : parse b = .ok e') (hfew : e.length + e'.length ≤ 214748)
    (op : Operator) {source between rest : σ} {drawn drawn' : Nat} {r r' : Roll}
    (hr : Outcome (fun patience => e.roll patience) (Tap.fresh source) r ⟨between, drawn⟩)
    (hr' : Outcome (fun patience => e'.roll patience) (Tap.fresh between) r' ⟨rest, drawn'⟩) :
    ∃ whole roll, parse (a ++ String.singleton (operatorSign op) ++ b) = .ok whole ∧
      Outcome (fun patience => whole.roll patience) (Tap.fresh source) roll
          ⟨rest, drawn + drawn'⟩ ∧
        roll.subtotals.map Int64.toInt
            = r.subtotals.map Int64.toInt
              ++ (r'.subtotals.map Int64.toInt).modifyHead op.sign.times ∧
          roll.faces.map (List.map Int64.toInt)
              = r.faces.map (List.map Int64.toInt)
                ++ (r'.faces.map (List.map Int64.toInt)).modifyHead (List.map op.sign.times) ∧
            AddsExactly roll.subtotals roll.total ∧
              roll.text = r.text ++ [' ', operatorSign op, ' '] ++ r'.text := by
  have hmax : maxTerms = 214748 := rfl
  have hwf := wellFormed_of_parse ha
  have hwf' := wellFormed_of_parse hb
  have hparse : parse (a ++ String.singleton (operatorSign op) ++ b) = .ok (e.join op e') := by
    rw [parse_append_sign ha, hb]
    rfl
  have hexact := exact_of_outcome hwf (by omega) hr
  have hexact' := exact_of_outcome hwf' (by omega) hr'
  have hleads := Roll.leads_of_exact hwf' hexact'
  -- The second count begins where the first ended.
  have hjoin : Outcome (fun patience => (e.join op e').roll patience) (Tap.fresh source)
      (r.join op r') ⟨rest, drawn + drawn'⟩ :=
    outcome_join hwf'.2.1 op hr (outcome_later hr' drawn)
  have hlength : (e.join op e').length = e.length + e'.length := by
    show (e.terms ++ e'.terms.modifyHead op.apply).length = e.terms.length + e'.terms.length
    rw [List.length_append, List.length_modifyHead]
  -- The whole is a notation of few terms too, so it adds up exactly.
  have hadds := (exact_of_outcome (wellFormed_of_parse hparse) (by omega) hjoin).adds
  exact ⟨e.join op e', r.join op r', hparse, hjoin, Roll.toInt_subtotals_join hleads r op,
    Roll.toInt_faces_join hleads r op, hadds,
    Roll.text_join hleads (parts_ne_nil hwf hexact) (parts_ne_nil hwf' hexact') op⟩

/-- Two dice, the second of which rejects a word, less a die and a constant. -/
theorem roll_two_dice_append :
    ∃ whole roll, parse ("2d6" ++ String.singleton (operatorSign .sub) ++ "d4+3") = .ok whole ∧
      Outcome (fun patience => whole.roll patience)
          (Tap.fresh (ListedSource.mk [0, 0xFFFFFFFF, 0xEAAAAAAA, 0x40000000] 0)) roll
          ⟨⟨[], 0⟩, 4⟩ ∧
        roll.subtotals.map Int64.toInt = [7, -2, 3] ∧
          roll.faces.map (List.map Int64.toInt) = [[1, 6], [-2], [3]] ∧
            AddsExactly roll.subtotals roll.total ∧ roll.text = "[1, 6] - [2] + 3".toList := by
  have ha : parse "2d6" = .ok ⟨[.dice ⟨2, 6, .positive⟩]⟩ := by decide +kernel
  have hb : parse "d4+3" = .ok ⟨[.dice ⟨1, 4, .positive⟩, .constant ⟨3⟩]⟩ := by decide +kernel
  have hfirst : Die.Finds 6
      (Tap.fresh (ListedSource.mk [0, 0xFFFFFFFF, 0xEAAAAAAA, 0x40000000] 0)) 1
      ⟨⟨[0xFFFFFFFF, 0xEAAAAAAA, 0x40000000], 0⟩, 1⟩ := .accepted (by decide)
  have hretry : Die.Finds 6 (Tap.mk (ListedSource.mk [0xEAAAAAAA, 0x40000000] 0) 2) 6
      ⟨⟨[0x40000000], 0⟩, 3⟩ := .accepted (by decide)
  have hsecond : Die.Finds 6
      (Tap.mk (ListedSource.mk [0xFFFFFFFF, 0xEAAAAAAA, 0x40000000] 0) 1) 6
      ⟨⟨[0x40000000], 0⟩, 3⟩ := .rejected (by decide) hretry
  have hless : Die.Finds 4 (Tap.fresh (ListedSource.mk [0x40000000] 0)) 2 ⟨⟨[], 0⟩, 1⟩ :=
    .accepted (by decide)
  have hr : Outcome (fun patience => roll patience ⟨[.dice ⟨2, 6, .positive⟩]⟩) _
      (dealt ⟨[.dice ⟨2, 6, .positive⟩]⟩ [1, 6]) _ :=
    outcome_of_draws (.die hfirst (.die hsecond .done))
  have hr' : Outcome
      (fun patience => roll patience ⟨[.dice ⟨1, 4, .positive⟩, .constant ⟨3⟩]⟩) _
      (dealt ⟨[.dice ⟨1, 4, .positive⟩, .constant ⟨3⟩]⟩ [2]) _ :=
    outcome_of_draws (.die hless .done)
  obtain ⟨whole, roll, hparse, hroll, hsubtotals, hfaces, hadds, htext⟩ :=
    roll_append_operator ha hb (by decide) .sub hr hr'
  refine ⟨whole, roll, hparse, hroll, hsubtotals.trans ?_, hfaces.trans ?_, hadds,
    htext.trans ?_⟩
  · decide
  · decide
  · decide

end Expression

end TabletopDice
