/-
  TabletopDice.Proofs.Text.Display
  ──────────────────────────────────────
  **THE TEXT OF AN EXPRESSION IDENTIFIES IT**, also where no notation says it.

  Reading back cannot show this: an expression with no dice in a group, with a
  constant beyond 32 bits or with a minus in front prints, but is never read.
  What is written tells its parts all the same.  A term is written as its
  distance from zero behind an operator; the operator tells the sign, the
  letter tells a group from a constant, and a space ends every term but the
  last.

    • `Term.eq_of_text_append` — a term from its operator and its text,
    • `Term.delimited_behind_operator` — so the two together are delimited,
    • `Expression.text_injective` — the list of terms, the first one apart,
    • `Expression.display_inj` — the text as a string.
-/
import TabletopDice.Proofs.Roll.Breakdown
import TabletopDice.Proofs.Text.Delimited

namespace TabletopDice

open Grammar

/-! ## §1. One term. -/

theorem Grammar.operatorSign_injective : Function.Injective operatorSign := by
  intro op op' h
  cases op with
  | add =>
      cases op' with
      | add => rfl
      | sub => exact absurd h (by decide)
  | sub =>
      cases op' with
      | add => exact absurd h (by decide)
      | sub => rfl

/-- A group is its two numbers with the letter between them. -/
theorem Dice.delimited_text :
    Delimited Char.isDigit fun numbers : Nat × Nat =>
      Decimal.natural numbers.1 ++ 'd' :: Decimal.natural numbers.2 :=
  Decimal.delimited_natural.pair Decimal.delimited_natural (by decide)

namespace Term

/-- **No group is written as a constant**: its letter stands where a constant
has ended. -/
theorem dice_text_append_ne (d : Dice) (c : Constant) (x : List Char) {y : List Char}
    (hy : Clear Reader.inTerm y) : (dice d).text ++ x ≠ (constant c).text ++ y := by
  intro heq
  -- Both start with a number, which ends in front of the letter and in front of `y`.
  have hletter : Decimal.natural d.count.toNat ++ 'd' :: (Decimal.natural d.sides.toNat ++ x)
      = Decimal.natural c.value.toInt.natAbs ++ y := by
    simpa [text, Dice.text, Constant.text] using heq
  obtain ⟨-, hrest⟩ := Decimal.delimited_natural (Clear.cons_iff.2 (by decide))
    (Reader.clear_isDigit hy) hletter
  rw [← hrest, Clear.cons_iff] at hy
  exact absurd hy (by decide)

/-- **A term is told by its operator and its text**, whatever follows that
does not go on with the term. -/
theorem eq_of_text_append {t u : Term} (hop : t.operator = u.operator) {x y : List Char}
    (hx : Clear Reader.inTerm x) (hy : Clear Reader.inTerm y)
    (h : t.text ++ x = u.text ++ y) : t = u ∧ x = y := by
  -- The operator is known, so the text has to tell the kind and the numbers.
  cases t with
  | dice d =>
      cases u with
      | constant c => exact absurd h (dice_text_append_ne d c x hy)
      | dice e =>
          obtain ⟨hnumbers, hrest⟩ := Dice.delimited_text (a := (d.count.toNat, d.sides.toNat))
            (b := (e.count.toNat, e.sides.toNat)) (Reader.clear_isDigit hx)
            (Reader.clear_isDigit hy) h
          have hcount : d.count = e.count := UInt32.toNat_inj.1 (Prod.mk.inj hnumbers).1
          have hsides : d.sides = e.sides := UInt32.toNat_inj.1 (Prod.mk.inj hnumbers).2
          have hsign : d.sign = e.sign := by
            rw [← sign_operator_dice, ← sign_operator_dice, hop]
          have hdice : d = e := by
            rw [show d = ⟨d.count, d.sides, d.sign⟩ from rfl, hcount, hsides, hsign]
          exact ⟨congrArg dice hdice, hrest⟩
  | constant c =>
      cases u with
      | dice e => exact absurd h.symm (dice_text_append_ne e c y hx)
      | constant c' =>
          obtain ⟨hnat, hrest⟩ := Decimal.delimited_natural (Reader.clear_isDigit hx)
            (Reader.clear_isDigit hy) h
          -- The operator puts the distance back on its side of zero.
          have hvalue : c.value.toInt = c'.value.toInt :=
            calc c.value.toInt
                = (constant c).operator.sign.times c.value.toInt.natAbs :=
                  (times_natAbs_constant c).symm
              _ = (constant c').operator.sign.times c'.value.toInt.natAbs := by rw [hop, hnat]
              _ = c'.value.toInt := times_natAbs_constant c'
          exact ⟨congrArg constant (congrArg Constant.mk (Int64.toInt_inj.1 hvalue)), hrest⟩

/-- **Behind its operator a term is delimited** by the characters of terms. -/
theorem delimited_behind_operator :
    Delimited Reader.inTerm fun t : Term => operatorSign t.operator :: ' ' :: t.text := by
  intro t u x y hx hy heq
  simp only [List.cons_append, List.cons.injEq, true_and] at heq
  exact eq_of_text_append (operatorSign_injective heq.1) hx hy heq.2

end Term

/-! ## §2. All terms. -/

namespace Expression

/-- Later terms, each behind its operator between spaces. -/
theorem flatMap_following (ts : List Term) :
    (ts.map Term.addend).flatMap SignedSum.following
      = ts.flatMap fun t => ' ' :: (operatorSign t.operator :: ' ' :: t.text) := by
  rw [List.flatMap_map]
  exact congrArg (ts.flatMap ·) (funext following_addend)

/-- **Later terms are told by their text**, which ends with the last of them. -/
theorem flatMap_following_injective :
    Function.Injective fun ts : List Term => (ts.map Term.addend).flatMap SignedSum.following := by
  simp only [flatMap_following]
  exact (Term.delimited_behind_operator.flatMap (by decide)).injective

/-- In front of the first term a minus stands, or its own first digit. -/
theorem operator_eq_of_leading_append {t u : Term} {x y : List Char}
    (h : SignedSum.leading t.addend ++ x = SignedSum.leading u.addend ++ y) :
    t.operator = u.operator ∧ t.text ++ x = u.text ++ y := by
  have hdash : Char.isDigit '-' = false := by decide
  rw [show SignedSum.leading t.addend = _ from leading_signed t t.text,
    show SignedSum.leading u.addend = _ from leading_signed u u.text] at h
  -- A dash in front of one text and a digit in front of the other cannot be equal.
  cases ht : t.operator with
  | add =>
      cases hu : u.operator with
      | add =>
          rw [ht, hu] at h
          exact ⟨rfl, h⟩
      | sub =>
          rw [ht, hu] at h
          exact absurd h (t.text_append_ne_cons hdash x _)
  | sub =>
      cases hu : u.operator with
      | add =>
          rw [ht, hu] at h
          exact absurd h.symm (u.text_append_ne_cons hdash y _)
      | sub =>
          rw [ht, hu] at h
          exact ⟨rfl, (List.cons.inj h).2⟩

theorem text_cons_ne_nil (t : Term) (ts : List Term) : text ⟨t :: ts⟩ ≠ [] := by
  have hleading : SignedSum.leading t.addend ≠ [] := by
    unfold SignedSum.leading
    split
    · exact List.cons_ne_nil _ _
    · exact t.text_ne_nil
  exact List.append_ne_nil_of_left_ne_nil hleading _

/-- **Different expressions, different texts.** -/
theorem text_injective : Function.Injective text := by
  rintro ⟨ts⟩ ⟨us⟩ h
  cases ts with
  | nil =>
      cases us with
      | nil => rfl
      | cons u us => exact absurd h.symm (text_cons_ne_nil u us)
  | cons t ts =>
      cases us with
      | nil => exact absurd h (text_cons_ne_nil t ts)
      | cons u us =>
          obtain ⟨hop, htext⟩ := operator_eq_of_leading_append (t := t) (u := u) h
          -- The first term ends where the space in front of the second stands.
          obtain ⟨hfirst, hlater⟩ := Term.eq_of_text_append hop (clear_inTerm_following _)
            (clear_inTerm_following _) htext
          rw [hfirst, flatMap_following_injective hlater]

/-- **THE TEXT OF AN EXPRESSION IDENTIFIES IT.**  Any two expressions, whatever
their terms, print alike only if they are the same. -/
theorem display_inj (e e' : Expression) : e.display = e'.display ↔ e = e' := by
  constructor
  · intro h
    have htext := congrArg String.toList h
    rw [toList_display, toList_display] at htext
    exact text_injective htext
  · intro h
    rw [h]

end Expression

end TabletopDice
