/-
  TabletopDice.Proofs.Grammar.RoundTrip
  ──────────────────────────────────────
  **WHAT IS WRITTEN CAN BE READ, AND WHAT CAN BE READ CAN BE WRITTEN.**

  Writing knows nothing of slots and reading knows nothing of how a sum is
  laid out; they meet in the grammar, where the text of a well-formed
  expression spells it (`spells_text`).

  A term is written without its sign, so its text spells the term as it stands
  after a plus (`Term.unsigned`), and the sign in front of it makes the rest.
-/
import TabletopDice.Expression.Display
import TabletopDice.Proofs.Grammar.Limits

namespace TabletopDice

open Grammar

/-! ## §1. Numbers. -/

namespace Decimal

theorem isDigit_natural {n : Nat} {c : Char} (h : c ∈ natural n) : c.isDigit = true :=
  Nat.isDigit_of_mem_toDigits (by decide) (by decide) h

/-- Every number is written with a digit at least, also zero. -/
theorem natural_ne_nil (n : Nat) : natural n ≠ [] := Nat.toDigits_ne_nil

/-- **All of a written number is one run of digits.** -/
theorem takeWhile_natural (n : Nat) : (natural n).takeWhile Char.isDigit = natural n :=
  List.takeWhile_eq_self_iff.2 fun _ hc => isDigit_natural hc

theorem dropWhile_natural (n : Nat) : (natural n).dropWhile Char.isDigit = [] :=
  List.dropWhile_eq_nil_iff.2 fun _ hc => isDigit_natural hc

/-- The digits of a number stand for it. -/
theorem ofDigitChars_natural (n : Nat) : Nat.ofDigitChars 10 (natural n) 0 = n :=
  Nat.ofDigitChars_ten_toDigits

/-- **No number is written with a leading zero**, zero itself apart. -/
theorem head?_natural {n : Nat} (h : 1 ≤ n) : (natural n).head? ≠ some '0' := by
  unfold natural
  induction n using Nat.strongRecOn with
  | ind n ih =>
      -- One digit, which is not zero, or more of them.
      by_cases hlt : n < 10
      · have hdigit : ∀ d : Fin 10, 1 ≤ d.val → some (Nat.digitChar d.val) ≠ some '0' := by
          decide
        rw [Nat.toDigits_of_lt_base hlt]
        exact hdigit ⟨n, hlt⟩ h
      · -- The digits in front of the last one are those of a smaller number.
        have ih' := ih (n / 10) (by omega) (by omega)
        rw [Nat.toDigits_of_base_le (by decide) (by omega)]
        obtain ⟨c, digits, hdigits⟩ :=
          List.exists_cons_of_ne_nil (natural_ne_nil (n / 10))
        rw [show Nat.toDigits 10 (n / 10) = c :: digits from hdigits] at ih' ⊢
        exact ih'

/-- A written number, whatever stands behind it, begins with a digit. -/
theorem natural_append_ne_cons {c : Char} (hc : c.isDigit = false) (n : Nat)
    (x y : List Char) : natural n ++ x ≠ c :: y := by
  obtain ⟨d, digits, hdigits⟩ := List.exists_cons_of_ne_nil (natural_ne_nil n)
  have hd : d.isDigit = true := isDigit_natural (hdigits ▸ List.mem_cons_self)
  intro heq
  rw [hdigits] at heq
  have hdc : d = c := (List.cons.inj heq).1
  rw [hdc, hc] at hd
  cases hd

end Decimal

/-- **A written number is a number of the grammar**, if it is neither zero nor too
large. -/
theorem Grammar.spelled_natural {limit n : Nat} (hlo : 1 ≤ n) (hhi : n ≤ limit) :
    Spelled limit (Decimal.natural n) n where
  digits := fun _ hc => Decimal.isDigit_natural hc
  nonempty := Decimal.natural_ne_nil n
  no_leading_zero := Decimal.head?_natural hlo
  value_eq := Decimal.ofDigitChars_natural n
  within := hhi

/-! ## §2. Terms. -/

namespace Term

/-- The operator that a term is written after. -/
def operator (t : Term) : Operator := if t.isNegative then .sub else .add

/-- A term as it would stand after a plus. -/
def unsigned : Term → Term
  | .dice d => .dice { d with sign := .positive }
  | .constant c => .constant (.ofUInt32 (UInt32.ofNat c.value.toInt.natAbs))

/-- **A term is its operator over what its text says.** -/
theorem apply_operator_unsigned {t : Term} (h : t.WithinLimits) :
    t.operator.apply t.unsigned = t := by
  cases t with
  | dice d =>
      obtain ⟨count, sides, sign⟩ := d
      cases sign with
      | positive => rfl
      | negative => rfl
  | constant c =>
      have hc : c.WithinLimits := h
      obtain ⟨hlo, hhi⟩ := hc
      have hmax : Reader.maxNumber = UInt32.size - 1 := rfl
      have hnat : (UInt32.ofNat c.value.toInt.natAbs).toNat = c.value.toInt.natAbs :=
        Reader.toNat_ofNat_of_le (by omega)
      have hv : (Constant.ofUInt32 (UInt32.ofNat c.value.toInt.natAbs)).value.toInt
          = c.value.toInt.natAbs := by
        rw [Constant.toInt_ofUInt32, hnat]
      unfold operator
      rw [isNegative_constant]
      -- The text holds the distance from zero; a minus puts it below again.
      by_cases hneg : c.value.toInt < 0
      · rw [decide_eq_true hneg, if_pos rfl]
        have hlimits : (Constant.ofUInt32 (UInt32.ofNat c.value.toInt.natAbs)).WithinLimits := by
          unfold Constant.WithinLimits
          rw [hv]
          omega
        refine congrArg Term.constant (congrArg Constant.mk (Int64.toInt_inj.1 ?_))
        show (Constant.negate (Constant.ofUInt32 _)).value.toInt = _
        rw [Constant.toInt_negate_of_withinLimits hlimits, hv]
        omega
      · rw [decide_eq_false hneg, if_neg (by decide)]
        refine congrArg Term.constant (congrArg Constant.mk (Int64.toInt_inj.1 ?_))
        show (Constant.ofUInt32 _).value.toInt = _
        rw [hv]
        omega

theorem text_ne_nil (t : Term) : t.text ≠ [] := by
  cases t with
  | dice d => simp [text, Dice.text]
  | constant c => exact Decimal.natural_ne_nil _

/-- The text of a term begins with a digit. -/
theorem text_append_ne_cons {c : Char} (hc : c.isDigit = false) (t : Term) (x y : List Char) :
    t.text ++ x ≠ c :: y := by
  -- A group begins with its count, and a constant is a number.
  cases t with
  | dice d =>
      show (_ ++ _) ++ x ≠ c :: y
      rw [List.append_assoc]
      exact Decimal.natural_append_ne_cons hc _ _ y
  | constant d => exact Decimal.natural_append_ne_cons hc _ x y

/-- **The text of a term spells it, its sign apart.** -/
theorem termText_text {t : Term} (h : t.WithinLimits) : TermText t.text t.unsigned := by
  cases t with
  | dice d =>
      obtain ⟨hlo, hhi, hs⟩ := (h : d.WithinLimits)
      rw [UInt32.le_iff_toNat_le] at hlo hhi hs
      have hlt : d.sides.toNat < UInt32.size := d.sides.toNat_lt
      have hmax : Reader.maxNumber = UInt32.size - 1 := rfl
      -- The count and the sides are written out, so both are numbers here.
      have hcount : CountText (Decimal.natural d.count.toNat) d.count.toNat :=
        .written (spelled_natural hlo hhi)
      have hsides : SidesText (Decimal.natural d.sides.toNat) d.sides.toNat :=
        .written (spelled_natural hs (by omega))
      have hletter : 'd' = 'd' ∨ 'd' = 'D' := .inl rfl
      have htext := TermText.dice hcount hletter hsides
      rw [UInt32.ofNat_toNat, UInt32.ofNat_toNat] at htext
      exact htext
  | constant c =>
      obtain ⟨hlo, hhi⟩ := (h : c.WithinLimits)
      have hmax : Reader.maxNumber = UInt32.size - 1 := rfl
      exact .constant (spelled_natural hlo (by omega))

end Term

/-! ## §3. Sums of terms. -/

namespace Grammar

/-- Behind others, what a term is written as stands after its sign, between two
spaces. -/
theorem following_signed (t : Term) (body : List Char) :
    SignedSum.following ⟨t.isNegative, body⟩ = [' '] ++ operatorSign t.operator :: ([' '] ++ body) := by
  unfold SignedSum.following Term.operator
  cases t.isNegative with
  | true => rfl
  | false => rfl

/-- In front of others, only a minus sign is written. -/
theorem leading_signed (t : Term) (body : List Char) :
    SignedSum.leading ⟨t.isNegative, body⟩
      = match t.operator with
        | .add => body
        | .sub => '-' :: body := by
  unfold SignedSum.leading Term.operator
  cases t.isNegative with
  | true => rfl
  | false => rfl

/-- A later addend is its sign between two spaces, and its text. -/
theorem following_addend (t : Term) :
    SignedSum.following t.addend = [' '] ++ operatorSign t.operator :: ([' '] ++ t.text) :=
  following_signed t t.text

/-- Behind a term the next one is set off by a space. -/
theorem clear_inTerm_following (addends : List Addend) :
    Clear Reader.inTerm (addends.flatMap SignedSum.following) := by
  -- Either no addend follows, or a space does.
  cases addends with
  | nil => exact Clear.nil _
  | cons a addends =>
      rw [List.flatMap_cons]
      unfold SignedSum.following
      split
      · exact Clear.cons_iff.2 (by decide)
      · exact Clear.cons_iff.2 (by decide)

theorem spaces_singleton : Spaces [' '] := by
  intro c hc
  exact List.mem_singleton.1 hc

theorem spaces_nil : Spaces [] := by
  intro c hc
  cases hc

/-- **Later addends are a tail of the grammar.** -/
theorem tail_following (ts : List Term) :
    (∀ t ∈ ts, t.WithinLimits) → Tail ((ts.map Term.addend).flatMap SignedSum.following) ts := by
  induction ts with
  | nil =>
      intro _
      exact .done spaces_nil
  | cons t ts ih =>
      intro h
      have ht := h t List.mem_cons_self
      have htail := ih fun u hu => h u (List.mem_cons_of_mem t hu)
      -- The grammar gives the term its sign back, and so the term that was written.
      have hmore : Tail _ (t.operator.apply t.unsigned :: ts) :=
        .more spaces_singleton spaces_singleton (Term.termText_text ht) htail
      rw [Term.apply_operator_unsigned ht] at hmore
      rw [List.map_cons, List.flatMap_cons, following_addend]
      simpa only [List.append_assoc, List.cons_append] using hmore

/-- **The text of a well-formed expression spells it.** -/
theorem spells_text {e : Expression} (h : e.WellFormed) : Spells e.text e := by
  obtain ⟨ts⟩ := e
  obtain ⟨hne, hhead, hlimits⟩ := h
  cases ts with
  | nil => exact absurd rfl hne
  | cons t ts =>
      have ht := hlimits t List.mem_cons_self
      -- Nothing is written in front of the first term, which is not negative.
      have hpos : t.isNegative = false := hhead t rfl
      have hop : t.operator = .add := by
        unfold Term.operator
        rw [hpos]
        rfl
      have hunsigned := Term.apply_operator_unsigned ht
      rw [hop] at hunsigned
      have htext := Term.termText_text ht
      rw [show t.unsigned = t from hunsigned] at htext
      have htail := tail_following ts fun u hu => hlimits u (List.mem_cons_of_mem t hu)
      have hlead : SignedSum.leading t.addend = t.text := by
        unfold SignedSum.leading Term.addend
        rw [hpos]
        rfl
      show Spells (SignedSum.leading t.addend
        ++ (ts.map Term.addend).flatMap SignedSum.following) _
      rw [hlead]
      exact .intro spaces_nil htext htail

end Grammar

/-! ## §4. The round trip. -/

namespace Expression

theorem toList_display (e : Expression) : e.display.toList = e.text := String.toList_ofList

/-- **What is printed for a well-formed expression is read back.** -/
theorem parse_display_of_wellFormed {e : Expression} (h : e.WellFormed) :
    parse e.display = .ok e := by
  unfold parse
  rw [toList_display]
  exact ofChars_of_spells (spells_text h)

/-- **PRINTING AND PARSING ARE INVERSE** on everything that has a notation:
what the parser produces is well-formed and its text gives it back, and every
well-formed expression is produced, from its own text. -/
theorem parse_display :
    (∀ (source : String) (e : Expression), parse source = .ok e →
      e.WellFormed ∧ parse e.display = .ok e ∧
        ∀ e', parse e.display = .ok e' → e'.display = e.display) ∧
      ∀ e : Expression, e.WellFormed → parse e.display = .ok e := by
  refine ⟨?_, fun e h => parse_display_of_wellFormed h⟩
  intro source e he
  have hwf := wellFormed_of_parse he
  have hback := parse_display_of_wellFormed hwf
  refine ⟨hwf, hback, ?_⟩
  -- Parsing gives one outcome only, so this is the same expression.
  intro e' he'
  rw [hback] at he'
  injection he' with he'
  rw [he']

end Expression

end TabletopDice
