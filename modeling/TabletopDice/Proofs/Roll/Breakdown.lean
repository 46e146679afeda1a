/-
  TabletopDice.Proofs.Roll.Breakdown
  ──────────────────────────────────────
  **THE BREAKDOWN OF A ROLL CAN BE READ BACK.**

  The text of a roll writes every face without its sign and the signs between
  the terms.  `Breakdown.read?` reads such a text as a signed sum, knowing
  nothing of the roll: a number stands for itself, and faces in brackets stand
  for their sum.  What it reads are the faces that were rolled, so the text
  tells them, and with them the subtotals and the total.

    • `Breakdown.number?_natural`, `faces?_intercalate`, `body?_text` — each
      reader on what is written, whatever text comes behind it,
    • `Breakdown.read?_text` — the whole text, one item for each part,
    • `Term.values_part` — the numbers of an item are the faces of its part,
    • `Roll.Tallied.sum_value` — what they add up to, when no sum overflows,
    • `Roll.Tallied.eq_of_text` — equal texts, equal faces and sums.
-/
import Mathlib.Algebra.Ring.Int.Defs
import Mathlib.Algebra.Ring.Nat
import TabletopDice.Proofs.Roll.Composition

namespace TabletopDice

open Grammar

/-! ## §1. Signed sums and what they stand for. -/

namespace Breakdown

/-- What stands behind a sign: faces in brackets, or a number. -/
inductive Body
  | group (faces : List Nat)
  | number (n : Nat)
deriving DecidableEq

/-- One item of a signed sum. -/
structure Item where
  op : Operator
  body : Body
deriving DecidableEq

/-- The numbers that are written. -/
def Body.numbers : Body → List Nat
  | .group faces => faces
  | .number n => [n]

namespace Item

/-- The numbers of an item, each under its sign. -/
def values (i : Item) : List Int := i.body.numbers.map fun n : Nat => i.op.sign.times n

/-- **What an item stands for**: the sum of its numbers, under its sign. -/
def value (i : Item) : Int := i.op.sign.times (i.body.numbers.sum : Nat)

/-- The numbers of an item, signed one by one, add up to what it stands for. -/
theorem sum_values (i : Item) : i.values.sum = i.value := by
  obtain ⟨op, body⟩ := i
  show (body.numbers.map fun n : Nat => op.sign.times n).sum
    = op.sign.times (body.numbers.sum : Nat)
  -- Along the numbers: the sign of a sum is the sum of the signed numbers.
  induction body.numbers with
  | nil => cases op <;> rfl
  | cons n numbers ih =>
      rw [List.map_cons, List.sum_cons, ih, List.sum_cons]
      cases op with
      | add => simp [Operator.sign, Sign.times]
      | sub =>
          simp only [Operator.sign, Sign.times]
          omega

end Item

/-! ## §2. Reading a signed sum. -/

/-- Read the number in front of a text. -/
def number? (source : List Char) : Option (Nat × List Char) :=
  match source.takeWhile Char.isDigit with
  | [] => none
  | digits => some (Nat.ofDigitChars 10 digits 0, source.dropWhile Char.isDigit)

theorem length_of_number? {source rest : List Char} {n : Nat}
    (h : number? source = some (n, rest)) : rest.length ≤ source.length := by
  unfold number? at h
  split at h
  · cases h
  · cases h
    exact (List.dropWhile_suffix _).length_le

/-- Read numbers with a comma and a space between them, and the bracket behind
the last one. -/
def faces? (source : List Char) : Option (List Nat × List Char) :=
  match _ : number? source with
  | some (n, ']' :: rest) => some ([n], rest)
  | some (n, ',' :: ' ' :: more) => (faces? more).map fun read => (n :: read.1, read.2)
  | _ => none
termination_by source.length
decreasing_by
  have hle := length_of_number? ‹_›
  simp only [List.length_cons] at hle
  omega

theorem faces?_of_none {source : List Char} (h : number? source = none) :
    faces? source = none := by
  unfold faces?
  split <;> simp_all

theorem faces?_of_last {source rest : List Char} {n : Nat}
    (h : number? source = some (n, ']' :: rest)) : faces? source = some ([n], rest) := by
  unfold faces?
  split <;> simp_all

/-- A comma behind a number is followed by more faces. -/
theorem faces?_of_more {source more : List Char} {n : Nat}
    (h : number? source = some (n, ',' :: ' ' :: more)) :
    faces? source = (faces? more).map fun read => (n :: read.1, read.2) := by
  rw [faces?]
  split <;> simp_all

/-- Faces take nothing more than the text there is. -/
theorem length_of_faces? {source : List Char} :
    ∀ {rest : List Char} {faces : List Nat}, faces? source = some (faces, rest) →
      rest.length ≤ source.length := by
  -- Along the calls of the reader, one for each face.
  induction source using faces?.induct with
  | case1 source n back h =>
      intro rest faces hread
      have hle := length_of_number? h
      rw [faces?_of_last h] at hread
      cases hread
      exact Nat.le_of_succ_le hle
  | case2 source n more h ih =>
      intro rest faces hread
      have hle := length_of_number? h
      rw [faces?_of_more h, Option.map_eq_some_iff] at hread
      obtain ⟨⟨ns, back⟩, hmore, heq⟩ := hread
      cases heq
      have hback : back.length ≤ more.length := ih hmore
      simp only [List.length_cons] at hle
      show back.length ≤ source.length
      omega
  | case3 source h h' =>
      -- Neither a bracket nor a comma behind a number: nothing is read.
      intro rest faces hread
      unfold faces? at hread
      split at hread
      · exact absurd ‹_› (h _ _)
      · exact absurd ‹_› (h' _ _)
      · cases hread

/-- Read a number or faces in brackets, of which there may be none. -/
def body? : List Char → Option (Body × List Char)
  | '[' :: ']' :: rest => some (.group [], rest)
  | '[' :: source => (faces? source).map fun read => (.group read.1, read.2)
  | source => (number? source).map fun read => (.number read.1, read.2)

theorem length_of_body? {source rest : List Char} {body : Body}
    (h : body? source = some (body, rest)) : rest.length ≤ source.length := by
  unfold body? at h
  split at h
  · cases h
    simp only [List.length_cons]
    omega
  · obtain ⟨⟨faces, back⟩, hread, heq⟩ := Option.map_eq_some_iff.1 h
    cases heq
    exact Nat.le_succ_of_le (length_of_faces? hread)
  · obtain ⟨⟨n, back⟩, hread, heq⟩ := Option.map_eq_some_iff.1 h
    cases heq
    exact length_of_number? hread

/-- Read the items from the one behind an operator on, up to the end of the
text. -/
def items? (op : Operator) (source : List Char) : Option (List Item) :=
  match _ : body? source with
  | some (body, []) => some [⟨op, body⟩]
  | some (body, ' ' :: '+' :: ' ' :: more) => (items? .add more).map (⟨op, body⟩ :: ·)
  | some (body, ' ' :: '-' :: ' ' :: more) => (items? .sub more).map (⟨op, body⟩ :: ·)
  | _ => none
termination_by source.length
decreasing_by
  all_goals
    have hle := length_of_body? ‹_›
    simp only [List.length_cons] at hle
    omega

theorem items?_of_none {source : List Char} (op : Operator) (h : body? source = none) :
    items? op source = none := by
  unfold items?
  split <;> simp_all

theorem items?_of_last {op : Operator} {source : List Char} {body : Body}
    (h : body? source = some (body, [])) : items? op source = some [⟨op, body⟩] := by
  unfold items?
  split <;> simp_all

theorem items?_of_more {op op' : Operator} {source more : List Char} {body : Body}
    (h : body? source = some (body, ' ' :: operatorSign op' :: ' ' :: more)) :
    items? op source = (items? op' more).map (⟨op, body⟩ :: ·) := by
  rw [items?]
  cases op' <;> split <;> simp_all [operatorSign]

/-- **Read a signed sum**: no item at all, or a first one, which has a minus
sign right in front when it is negative, and others behind their signs. -/
def read? : List Char → Option (List Item)
  | [] => some []
  | '-' :: source => items? .sub source
  | source => items? .add source

/-! ## §3. Reading what is written. -/

/-- **A written number is read back**, when no digit stands behind it. -/
theorem number?_natural (n : Nat) {back : List Char} (hback : Clear Char.isDigit back) :
    number? (Decimal.natural n ++ back) = some (n, back) := by
  unfold number?
  rw [hback.takeWhile_append, Decimal.takeWhile_natural, hback.dropWhile_append,
    Decimal.dropWhile_natural, List.nil_append]
  split
  · next hnil => exact absurd hnil (Decimal.natural_ne_nil n)
  · rw [Decimal.ofDigitChars_natural]

/-- **Written faces are read back**, whatever text comes behind their bracket. -/
theorem faces?_intercalate (back : List Char) (n : Nat) (ns : List Nat) :
    faces? ([',', ' '].intercalate ((n :: ns).map Decimal.natural) ++ ']' :: back)
      = some (n :: ns, back) := by
  -- Along the faces behind the first: a comma ends each number but the last.
  induction ns generalizing n with
  | nil =>
      refine faces?_of_last ?_
      rw [List.map_singleton, List.intercalate_singleton]
      exact number?_natural n (Clear.cons_iff.2 rfl)
  | cons m ns ih =>
      have hclear : Clear Char.isDigit (',' :: ' ' ::
          ([',', ' '].intercalate ((m :: ns).map Decimal.natural) ++ ']' :: back)) :=
        Clear.cons_iff.2 rfl
      have hmore := faces?_of_more (number?_natural n hclear)
      rw [ih] at hmore
      rw [List.map_cons, List.map_cons, List.intercalate_cons_cons]
      simpa using hmore

/-! A text that one of the readers takes begins as that reader wants it, so no
other one gets hold of it. -/

/-- What starts with a number does not start with a bracket. -/
theorem body?_of_number? {source back : List Char} {n : Nat}
    (h : number? source = some (n, back)) : body? source = some (.number n, back) := by
  have hbracket : ∀ more, number? ('[' :: more) = none := fun _ => rfl
  unfold body?
  split
  · rw [hbracket] at h
    cases h
  · rw [hbracket] at h
    cases h
  · rw [h]
    rfl

/-- What starts with a face does not start with the closing bracket. -/
theorem body?_of_faces? {source back : List Char} {faces : List Nat}
    (h : faces? source = some (faces, back)) :
    body? ('[' :: source) = some (.group faces, back) := by
  have hbracket : ∀ more, faces? (']' :: more) = none := fun _ => faces?_of_none rfl
  unfold body?
  split
  · next heq =>
      cases heq
      rw [hbracket] at h
      cases h
  · next heq =>
      cases heq
      rw [h]
      rfl
  · next hne =>
      exact absurd rfl (hne _)

/-- What starts with an item does not start with a minus sign. -/
theorem read?_of_items? {source : List Char} {items : List Item}
    (h : items? .add source = some items) : read? source = some items := by
  unfold read?
  split
  · rw [items?_of_none .add rfl] at h
    cases h
  · rw [items?_of_none .add rfl] at h
    cases h
  · exact h

end Breakdown

/-- What a part is in the breakdown, its sign apart. -/
def Part.body (p : Part) : Breakdown.Body :=
  match p.term with
  | .dice _ => .group (p.faces.map fun face => face.toInt.natAbs)
  | .constant c => .number c.value.toInt.natAbs

/-- What a part is in the breakdown. -/
def Part.item (p : Part) : Breakdown.Item := ⟨p.term.operator, p.body⟩

namespace Breakdown

/-- Faces in brackets are read back without their signs, also when there are none. -/
theorem body?_bracketed (faces : List Int64) (back : List Char) :
    body? (Part.bracketed faces ++ back)
      = some (.group (faces.map fun face => face.toInt.natAbs), back) := by
  cases faces with
  | nil => rfl
  | cons v vs =>
      have hfaces := faces?_intercalate back v.toInt.natAbs (vs.map fun face => face.toInt.natAbs)
      unfold Part.bracketed
      simpa [Function.comp_def] using body?_of_faces? hfaces

/-- **The text of a part is read back**, when no digit stands behind it. -/
theorem body?_text (p : Part) {back : List Char} (hback : Clear Char.isDigit back) :
    body? (p.text ++ back) = some (p.body, back) := by
  obtain ⟨term, faces, total⟩ := p
  cases term with
  | dice d => exact body?_bracketed faces back
  | constant c => exact body?_of_number? (number?_natural c.value.toInt.natAbs hback)

theorem following_part (p : Part) :
    SignedSum.following p.addend = ' ' :: operatorSign p.term.operator :: ' ' :: p.text :=
  following_signed p.term p.text

/-- No digit stands behind a part: nothing, or a space. -/
theorem clear_following (parts : List Part) :
    Clear Char.isDigit ((parts.map Part.addend).flatMap SignedSum.following) :=
  Reader.clear_isDigit (clear_inTerm_following _)

/-- The texts of parts are read as their items, each with the operator in front of it. -/
theorem items?_text (p : Part) (parts : List Part) :
    items? p.term.operator
        (p.text ++ (parts.map Part.addend).flatMap SignedSum.following)
      = some ((p :: parts).map Part.item) := by
  have hbody := body?_text p (clear_following parts)
  -- Along the parts: what follows one is the operator and the text of the next.
  induction parts generalizing p with
  | nil => exact items?_of_last hbody
  | cons q parts ih =>
      rw [List.map_cons, List.flatMap_cons, following_part] at hbody ⊢
      simp only [List.cons_append] at hbody ⊢
      rw [items?_of_more hbody, ih q (body?_text q (clear_following parts))]
      rfl

/-- **THE TEXT OF A ROLL READS AS ITS PARTS**, one item for each. -/
theorem read?_text (r : Roll) : read? r.text = some (r.parts.map Part.item) := by
  obtain ⟨parts, total⟩ := r
  cases parts with
  | nil => rfl
  | cons p parts =>
      have hitems := items?_text p parts
      -- Only in front of the first item a minus sign stands without spaces.
      show read? (SignedSum.leading p.addend ++ _) = _
      rw [show SignedSum.leading p.addend = _ from leading_signed p.term p.text]
      cases hop : p.term.operator with
      | add =>
          rw [hop] at hitems
          exact read?_of_items? hitems
      | sub =>
          rw [hop] at hitems
          exact hitems

example : read? "[4, 1, 6] - [3] + 2".toList
    = some [⟨.add, .group [4, 1, 6]⟩, ⟨.sub, .group [3]⟩, ⟨.add, .number 2⟩] :=
  read?_text (Roll.ofParts
    [(Dice.clamped 3 6).part [4, 1, 6], (Dice.clamped 1 4).negate.part [3], Constant.roll ⟨2⟩])

end Breakdown

/-! ## §4. What is read are the faces. -/

/-- The sign gives a number back what the distance from zero took from it. -/
theorem Sign.times_natAbs_times (s : Sign) (n : Nat) :
    s.times (s.times n).natAbs = s.times n := by
  cases s with
  | positive => rfl
  | negative =>
      show -((-(n : Int)).natAbs : Int) = -n
      rw [Int.natAbs_neg, Int.natAbs_natCast]

namespace Term

/-- The operator in front of a group gives the sign of the group. -/
theorem sign_operator_dice (d : Dice) : (dice d).operator.sign = d.sign := by
  obtain ⟨count, sides, sign⟩ := d
  cases sign with
  | positive => rfl
  | negative => rfl

/-- The operator in front of a constant gives its distance from zero the sign back. -/
theorem times_natAbs_constant (c : Constant) :
    (constant c).operator.sign.times c.value.toInt.natAbs = c.value.toInt := by
  unfold operator
  rw [isNegative_constant]
  -- A constant is written with a minus sign just when it is below zero.
  by_cases hneg : c.value.toInt < 0
  · rw [decide_eq_true hneg, if_pos rfl]
    show -(c.value.toInt.natAbs : Int) = _
    omega
  · rw [decide_eq_false hneg, if_neg (by decide)]
    show (c.value.toInt.natAbs : Int) = _
    omega

/-- **The numbers of an item are the faces of its part**, under their
signs. -/
theorem values_part (t : Term) (shown : List UInt32) :
    (t.part shown).item.values = (t.part shown).faces.map Int64.toInt := by
  cases t with
  | dice d =>
      -- Face by face: written by its distance from zero, and read under the sign of the group.
      show ((shown.map _).map _).map _ = (shown.map fun face => _).map _
      rw [List.map_map, List.map_map, List.map_map]
      refine List.map_congr_left fun face _ => ?_
      show (dice d).operator.sign.times ((d.sign.apply face.toUInt64.toInt64).toInt.natAbs : Nat)
        = (d.sign.apply face.toUInt64.toInt64).toInt
      rw [Sign.toInt_apply_face, sign_operator_dice, Sign.times_natAbs_times]
  | constant c =>
      show [(constant c).operator.sign.times c.value.toInt.natAbs] = [c.value.toInt]
      rw [times_natAbs_constant]

theorem addsUp_part (t : Term) (shown : List UInt32) : (t.part shown).AddsUp := by
  cases t with
  | dice d => rfl
  | constant c => exact (Int64.zero_add c.value).symm

end Term

/-- Whatever faces are dealt, each part is the part of a term. -/
theorem exists_part_of_mem_deal {p : Part} (ts : List Term) :
    ∀ {faces : List UInt32}, p ∈ deal ts faces → ∃ (t : Term) (shown : List UInt32),
      p = t.part shown := by
  -- Along the terms, with whatever faces are left for the others.
  induction ts with
  | nil =>
      intro faces hp
      cases hp
  | cons t ts ih =>
      intro faces hp
      rcases List.mem_cons.1 hp with rfl | hp
      · exact ⟨t, _, rfl⟩
      · exact ih hp

/-! ## §5. What it adds up to. -/

theorem exactSum_eq_sum (values : List Int64) :
    exactSum values = (values.map Int64.toInt).sum := by
  induction values with
  | nil => rfl
  | cons v values ih => rw [exactSum_cons, ih, List.map_cons, List.sum_cons]

namespace Roll

/-- Every part is read as it was rolled and adds up, and so does the total. -/
structure Tallied (r : Roll) : Prop where
  values : ∀ p ∈ r.parts, p.item.values = p.faces.map Int64.toInt
  parts : ∀ p ∈ r.parts, p.AddsUp
  total : r.AddsUp

/-- **No sum overflows** that is formed on the way to the total: neither in a
part nor over the subtotals. -/
structure FitsThroughout (r : Roll) : Prop where
  faces : ∀ p ∈ r.parts, PartialSumsFit p.faces
  subtotals : PartialSumsFit r.subtotals

/-- **Dealt faces are tallied**, whatever the terms: no limit is needed for it. -/
theorem tallied_dealt (e : Expression) (faces : List UInt32) : (e.dealt faces).Tallied where
  values := by
    intro p hp
    obtain ⟨t, shown, rfl⟩ := exists_part_of_mem_deal e.terms hp
    exact t.values_part shown
  parts := by
    intro p hp
    obtain ⟨t, shown, rfl⟩ := exists_part_of_mem_deal e.terms hp
    exact t.addsUp_part shown
  total := rfl

variable {r r' : Roll}

/-- The faces tell the subtotals. -/
theorem Tallied.subtotals_eq (h : r.Tallied) : r.subtotals = r.faces.map Wrapping.sum := by
  show r.parts.map Part.total = (r.parts.map Part.faces).map Wrapping.sum
  rw [List.map_map]
  exact List.map_congr_left h.parts

/-- The numbers that are read are the faces of all parts. -/
theorem Tallied.map_values (h : r.Tallied) :
    (r.parts.map Part.item).map Breakdown.Item.values
      = r.faces.map fun faces => faces.map Int64.toInt := by
  show _ = (r.parts.map Part.faces).map _
  rw [List.map_map, List.map_map]
  exact List.map_congr_left h.values

/-- **What is read adds up to the total**, when no sum overflows. -/
theorem Tallied.sum_value (h : r.Tallied) (hfits : r.FitsThroughout) :
    ((r.parts.map Part.item).map Breakdown.Item.value).sum = r.total.toInt := by
  -- The faces of a part fit when added up, so its total is their sum over the integers.
  have hpart : ∀ p ∈ r.parts, p.item.value = p.total.toInt := by
    intro p hp
    have hsum : Fits (exactSum p.faces) := hfits.faces p hp p.faces (List.prefix_refl _)
    rw [h.parts p hp, Wrapping.toInt_sum_of_fits hsum, exactSum_eq_sum, ← h.values p hp,
      Breakdown.Item.sum_values]
  -- Each subtotal is exact by itself, so the sum of them is the sum of all.
  have hsum : Fits (exactSum r.subtotals) := hfits.subtotals r.subtotals (List.prefix_refl _)
  rw [h.total, Wrapping.toInt_sum_of_fits hsum, exactSum_eq_sum, List.map_map]
  show _ = ((r.parts.map Part.total).map Int64.toInt).sum
  rw [List.map_map]
  exact congrArg List.sum (List.map_congr_left hpart)

/-- **Equal texts, equal rolls**: the text tells the faces, and they tell the
sums. -/
theorem Tallied.eq_of_text (h : r.Tallied) (h' : r'.Tallied) (htext : r'.text = r.text) :
    r'.faces = r.faces ∧ r'.subtotals = r.subtotals ∧ r'.total = r.total := by
  have hread := Breakdown.read?_text r'
  rw [htext, Breakdown.read?_text r, Option.some.injEq] at hread
  have hinjective : Function.Injective fun faces : List Int64 => faces.map Int64.toInt :=
    List.map_injective_iff.2 fun _ _ => Int64.toInt.inj
  -- One text has one reading, and the numbers of the items are the faces.
  have hfaces : r'.faces = r.faces := by
    apply List.map_injective_iff.2 hinjective
    rw [← h'.map_values, ← h.map_values, hread]
  have hsubtotals : r'.subtotals = r.subtotals := by
    rw [h'.subtotals_eq, h.subtotals_eq, hfaces]
  refine ⟨hfaces, hsubtotals, ?_⟩
  rw [h'.total, h.total, hsubtotals]

end Roll

/-! ## §6. The text of a roll. -/

namespace Expression

theorem tallied_of_roll {σ : Type} [WordSource σ] {e : Expression} {patience : Nat}
    {source rest : σ} {r : Roll} (h : e.roll patience source = some (r, rest)) : r.Tallied := by
  obtain ⟨faces, -, rfl⟩ := draws_of_roll h
  exact Roll.tallied_dealt e faces

/-- **THE BREAKDOWN IS FAITHFUL.**  The text of a roll, whatever the terms,
reads as a signed sum of one item for each term, whose numbers are the faces
that were rolled; its value is the total when no sum overflows.  Another roll,
of any expression over any source, has the same text only if its faces, its
subtotals and its total are the same. -/
theorem breakdown_faithful {σ : Type} [WordSource σ] {e : Expression} {patience : Nat}
    {source rest : σ} {r : Roll} (h : e.roll patience source = some (r, rest)) :
    (∃ items, Breakdown.read? r.text = some items ∧ items.length = e.length ∧
        items.map Breakdown.Item.values = r.faces.map (fun faces => faces.map Int64.toInt) ∧
        (r.FitsThroughout → (items.map Breakdown.Item.value).sum = r.total.toInt)) ∧
      ∀ {τ : Type} [WordSource τ] {e' : Expression} {patience' : Nat} {source' rest' : τ}
        {r' : Roll}, e'.roll patience' source' = some (r', rest') → r'.text = r.text →
          r'.faces = r.faces ∧ r'.subtotals = r.subtotals ∧ r'.total = r.total := by
  have htallied := tallied_of_roll h
  constructor
  -- One part for each term, so one item for each term.
  · have hlength : (r.parts.map Part.item).length = e.length := by
      obtain ⟨faces, -, rfl⟩ := draws_of_roll h
      have hterms := congrArg List.length (terms_deal e.terms faces)
      rw [List.length_map] at hterms ⊢
      exact hterms
    exact ⟨_, Breakdown.read?_text r, hlength, htallied.map_values, htallied.sum_value⟩
  · intro τ _ e' patience' source' rest' r' h' htext
    exact htallied.eq_of_text (tallied_of_roll h') htext

/-- Two rolls with the text `-[2, 1] + 3`: two dice of six sides that count
below zero, and two of four sides. -/
theorem breakdown_faithful_of_two_dice :
    ∃ r r' : Roll,
      roll 1 ⟨[.dice ⟨2, 6, .negative⟩, .constant ⟨3⟩]⟩ (ListedSource.mk [0x40000000, 0] 0)
        = some (r, ⟨[], 0⟩) ∧
      roll 1 ⟨[.dice ⟨2, 4, .negative⟩, .constant ⟨3⟩]⟩ (ListedSource.mk [0x40000000, 1] 0)
        = some (r', ⟨[], 0⟩) ∧
      r.text = "-[2, 1] + 3".toList ∧ r'.text = r.text ∧
      (∃ items, Breakdown.read? r.text = some items ∧
        (items.map Breakdown.Item.value).sum = r.total.toInt) ∧
      r'.faces = r.faces ∧ r'.subtotals = r.subtotals ∧ r'.total = r.total := by
  have hroll : roll 1 ⟨[.dice ⟨2, 6, .negative⟩, .constant ⟨3⟩]⟩
      (ListedSource.mk [0x40000000, 0] 0)
      = some (⟨[⟨.dice ⟨2, 6, .negative⟩, [-2, -1], -3⟩, ⟨.constant ⟨3⟩, [3], 3⟩], 0⟩, ⟨[], 0⟩) := by
    decide
  have hroll' : roll 1 ⟨[.dice ⟨2, 4, .negative⟩, .constant ⟨3⟩]⟩
      (ListedSource.mk [0x40000000, 1] 0)
      = some (⟨[⟨.dice ⟨2, 4, .negative⟩, [-2, -1], -3⟩, ⟨.constant ⟨3⟩, [3], 3⟩], 0⟩, ⟨[], 0⟩) := by
    decide
  have hfits : Roll.FitsThroughout
      ⟨[⟨.dice ⟨2, 6, .negative⟩, [-2, -1], -3⟩, ⟨.constant ⟨3⟩, [3], 3⟩], 0⟩ :=
    ⟨by decide, by decide⟩
  obtain ⟨⟨items, hread, -, -, hvalue⟩, hother⟩ := breakdown_faithful hroll
  exact ⟨_, _, hroll, hroll', by decide, by decide, ⟨items, hread, hvalue hfits⟩,
    hother hroll' (by decide)⟩

end Expression

end TabletopDice
