/-
  TabletopDice.Proofs.Grammar.Misprint
  ──────────────────────────────────────
  **WHAT HAS NO NOTATION IS NEVER READ AS ONE.**

  Every expression prints, also one that no notation can say: without terms,
  with a minus in front, or with a term outside the limits.  The parser refuses
  what such an expression prints, and never takes it for another one.

  A term outside the limits is no group; when it has dice its count may still
  be read as a constant, and the letter behind it has no place then.  This is
  `Term.faultAt`, the offset of the fault in the text of the term.  The terms in
  front of the first such term are a notation of their own, so the fault of the
  whole is that of the term, moved by what is printed in front of it.

    • `Numeral.read?_natural` — a written number is read back within the
      limit, and is no numeral outside it,
    • `Scan.rest_run_misprint` — what the scan leaves of a term outside the
      limits,
    • `Expression.text_split` — what is printed in front of a term,
    • `Expression.parse_display_of_not_wellFormed` — the error of every
      expression without a notation.
-/
import TabletopDice.Proofs.Grammar.Spacing

namespace TabletopDice

open Grammar

/-! ## §1. Written numbers outside the limits. -/

/-- **A written number is read back if it is within the limit, and not zero.** -/
theorem Numeral.read?_natural (limit n : Nat) :
    read? limit (Decimal.natural n)
      = if 1 ≤ n ∧ n ≤ limit then some ⟨Decimal.natural n, n, []⟩ else none := by
  by_cases h : 1 ≤ n ∧ n ≤ limit
  · rw [if_pos h]
    exact (spelled_natural h.1 h.2).read?
  · rw [if_neg h, Option.eq_none_iff_forall_ne_some]
    intro m hm
    -- What was read would be the whole number, of its own value.
    obtain ⟨htext, -, -, -, hvalue, hle⟩ := read?_eq_some_iff.1 hm
    rw [htext, Decimal.takeWhile_natural, Decimal.ofDigitChars_natural] at hvalue
    have hone := (Spelled.of_read? hm).one_le
    omega

namespace Reader

theorem count?_natural (n : Nat) :
    count? (Decimal.natural n)
      = if 1 ≤ n ∧ n ≤ maxCount.toNat then some ⟨Decimal.natural n, n, []⟩ else none := by
  unfold count?
  rw [Decimal.takeWhile_natural, ← Numeral.read?_natural]
  -- The digits are there, so no count is left out.
  split
  · next h => exact absurd h (Decimal.natural_ne_nil n)
  · rfl

theorem sides?_natural (n : Nat) :
    sides? (Decimal.natural n)
      = if 1 ≤ n ∧ n ≤ maxNumber then some ⟨Decimal.natural n, n, []⟩ else none := by
  have hhead : (Decimal.natural n).head? ≠ some '%' := by
    intro h
    exact absurd (Decimal.isDigit_natural (List.mem_of_mem_head? h)) (by decide)
  rw [sides?_of_head_ne hhead, Numeral.read?_natural]

/-- The letter of a group ends the digits in front of it. -/
theorem clear_letter (text : List Char) : Clear Char.isDigit ('d' :: text) :=
  Clear.cons_iff.2 rfl

/-- **What a group outside the limits prints is no group.** -/
theorem dice?_text_of_not_withinLimits {d : Dice} (h : ¬d.WithinLimits) :
    dice? d.text = none := by
  unfold dice? Dice.text
  rw [count?_append_of_clear (clear_letter _), count?_natural]
  -- The count is read first, and only where it is one the sides are.
  by_cases hcount : 1 ≤ d.count.toNat ∧ d.count.toNat ≤ maxCount.toNat
  · -- The count is one, so the number of sides is none.
    have hsides : ¬(1 ≤ d.sides.toNat ∧ d.sides.toNat ≤ maxNumber) := by
      rintro ⟨hs, -⟩
      exact h ⟨UInt32.le_iff_toNat_le.2 hcount.1, UInt32.le_iff_toNat_le.2 hcount.2,
        UInt32.le_iff_toNat_le.2 hs⟩
    rw [if_pos hcount]
    show Option.map _ (sides? (Decimal.natural d.sides.toNat)) = none
    rw [sides?_natural, if_neg hsides]
    rfl
  · rw [if_neg hcount]
    rfl

/-- **Without a letter behind it a number is no group.** -/
theorem dice?_natural (n : Nat) : dice? (Decimal.natural n) = none := by
  unfold dice?
  rw [count?_natural]
  split
  · rfl
  · rfl

/-- In front of a text without a digit, a written number is a constant if it
is within the limit. -/
theorem constant?_natural_append (n : Nat) {back : List Char} (h : Clear Char.isDigit back) :
    constant? (Decimal.natural n ++ back)
      = if 1 ≤ n ∧ n ≤ maxNumber then
          some ⟨Decimal.natural n, some (.term (.constant (.ofUInt32 (UInt32.ofNat n)))), back⟩
        else none := by
  unfold constant?
  rw [Numeral.read?_append_of_clear _ h, Numeral.read?_natural]
  split
  · rfl
  · rfl

end Reader

/-! ## §2. A term outside the limits. -/

namespace Term

/-- **Where the text of a term outside the limits breaks off**: at the letter
of a group that has dice, at the beginning of anything else. -/
def faultAt : Term → Nat
  | .dice d => if d.count = 0 then 0 else (Decimal.natural d.count.toNat).length
  | .constant _ => 0

/-- The text of a term begins with no space. -/
theorem clear_space_text (t : Term) (back : List Char) : Clear (· = ' ') (t.text ++ back) := by
  cases htext : t.text ++ back with
  | nil => exact Clear.nil _
  | cons c more =>
      refine Clear.cons_iff.2 (decide_eq_false ?_)
      intro hc
      rw [hc] at htext
      exact t.text_append_ne_cons (by decide) back more htext

/-- It is written with digits and the letter of a group. -/
theorem writable_text (t : Term) : ∀ c ∈ t.text, writable c = true := by
  have hdigits : ∀ n, ∀ c ∈ Decimal.natural n, writable c = true := fun n c hc =>
    writable_of_inTerm (Reader.inTerm_of_isDigit (Decimal.isDigit_natural hc))
  cases t with
  | constant c => exact hdigits _
  | dice d =>
      intro c hc
      rcases List.mem_append.1 hc with hc | hc
      · exact hdigits _ c hc
      -- Behind the count stands the letter, and then the sides.
      · rcases List.mem_cons.1 hc with rfl | hc
        · decide
        · exact hdigits _ c hc

/-- **A term outside the limits is not read at all, or as a constant up to the
letter behind its count.** -/
theorem read?_misprint {t : Term} (h : ¬t.WithinLimits) :
    Slot.term.pattern.read? t.text = none ∧ t.faultAt = 0 ∨
      ∃ count token sides, t.text = count ++ 'd' :: sides ∧ t.faultAt = count.length ∧
        Slot.term.pattern.read? t.text = some ⟨count, token, 'd' :: sides⟩ := by
  cases t with
  | constant c =>
      have hout : ¬(1 ≤ c.value.toInt.natAbs ∧ c.value.toInt.natAbs ≤ Reader.maxNumber) := by
        rintro ⟨hlo, hhi⟩
        exact h ⟨hlo, Nat.lt_of_le_of_lt hhi (by decide)⟩
      have hconstant := Reader.constant?_natural_append c.value.toInt.natAbs (Clear.nil _)
      rw [List.append_nil, if_neg hout] at hconstant
      refine .inl ⟨?_, rfl⟩
      rw [Slot.read?_term]
      show (Reader.dice? (Decimal.natural _)).or (Reader.constant? (Decimal.natural _)) = none
      rw [Reader.dice?_natural, hconstant]
      rfl
  | dice d =>
      have hdice : Reader.dice? d.text = none := Reader.dice?_text_of_not_withinLimits h
      have hconstant := Reader.constant?_natural_append d.count.toNat
        (Reader.clear_letter (Decimal.natural d.sides.toNat))
      have hlt : d.count.toNat < UInt32.size := d.count.toNat_lt
      have hmax : Reader.maxNumber = UInt32.size - 1 := rfl
      rw [Slot.read?_term]
      show (Reader.dice? d.text).or (Reader.constant? d.text) = none ∧ _ ∨
        ∃ count token sides, d.text = _ ∧ _ ∧ (Reader.dice? d.text).or (Reader.constant? d.text) = _
      rw [hdice, Option.none_or]
      unfold faultAt
      by_cases hzero : d.count = 0
      · -- No dice: the count has a leading zero, and is no constant either.
        have hcount : d.count.toNat = 0 := by rw [hzero]; rfl
        rw [if_neg (by omega)] at hconstant
        exact .inl ⟨hconstant, if_pos hzero⟩
      · have hcount : d.count.toNat ≠ 0 := fun h0 => hzero (UInt32.toNat.inj h0)
        rw [if_pos (by omega)] at hconstant
        exact .inr ⟨_, _, _, rfl, if_neg hzero, hconstant⟩

/-- The fault lies inside the text, and not at its end. -/
theorem drop_faultAt_ne_nil {t : Term} (h : ¬t.WithinLimits) : t.text.drop t.faultAt ≠ [] := by
  obtain ⟨-, hfault⟩ | ⟨count, token, sides, htext, hfault, -⟩ := read?_misprint h
  · rw [hfault]
    exact t.text_ne_nil
  · rw [hfault, htext, List.drop_left]
    exact List.cons_ne_nil _ _

/-- As many bytes as characters stand in front of it. -/
theorem size_take_faultAt {t : Term} (h : ¬t.WithinLimits) :
    Utf8.size (t.text.take t.faultAt) = t.faultAt := by
  have hlt := List.drop_eq_nil_iff.not.1 (drop_faultAt_ne_nil h)
  rw [size_eq_length fun c hc => t.writable_text c (List.mem_of_mem_take hc), List.length_take]
  omega

end Term

namespace Scan

/-- A slot that finds nothing leaves all of the text. -/
theorem rest_run_of_none {slot : Slot} {source : List Char}
    (h : slot.pattern.read? source = none) : (run slot source).rest = source := by
  rw [run_of_none h]

/-- **What the scan leaves of a term outside the limits** begins at its fault. -/
theorem rest_run_misprint {t : Term} (h : ¬t.WithinLimits) {back : List Char}
    (hback : Clear Reader.inTerm back) :
    (run .term (t.text ++ back)).rest = t.text.drop t.faultAt ++ back := by
  have hne := List.append_ne_nil_of_left_ne_nil t.text_ne_nil back
  have hboth := Slot.term.read?_append t.text_ne_nil hback
  -- Not read at all, or read up to the letter, which no slot for operators takes.
  obtain ⟨hnone, hfault⟩ | ⟨count, token, sides, htext, hfault, hread⟩ := Term.read?_misprint h
  · rw [hnone] at hboth
    rw [hfault, List.drop_zero]
    exact rest_run_of_none hboth
  · rw [hread] at hboth
    rw [hfault, rest_run_of_some hne hboth]
    have hletter : (run .trailingSpace ('d' :: (sides ++ back))).rest = 'd' :: (sides ++ back) :=
      rest_run_inTerm spaces_nil (by decide) (sides ++ back)
    rw [htext, List.drop_left]
    exact hletter

/-- Spaces in front of a text are passed over. -/
theorem rest_run_spaces {spaces source : List Char} (hspaces : Spaces spaces)
    (hclear : Clear (· = ' ') source) (hs : source ≠ []) :
    (ofText (spaces ++ source)).rest = (run .term source).rest := by
  have hread := Slot.leadingSpace.read?_spaces rfl hspaces hclear
  exact rest_run_of_some (List.append_ne_nil_of_right_ne_nil spaces hs) hread

end Scan

/-! ## §3. The place of the fault. -/

namespace Expression

/-- **A scan that leaves a back part of its text is an error where that
begins.** -/
theorem ofChars_of_rest {front rest : List Char} (h : (Scan.ofText (front ++ rest)).rest = rest)
    (hrest : rest ≠ []) :
    ∃ excerpt, ofChars (front ++ rest) = .error (.unreadable (Utf8.size front) excerpt) := by
  have hstuck : (Scan.ofText (front ++ rest)).rest ≠ [] := by
    rw [h]
    exact hrest
  -- The place of an error counts the bytes that are not left.
  have hsize : Utf8.size (front ++ rest) - Utf8.size rest = Utf8.size front := by
    rw [Utf8.size_append]
    omega
  refine ⟨String.ofList (rest.take ParseError.excerptLength), ?_⟩
  rw [ofChars_of_stuck hstuck, h, ParseError.unreadableAt, hsize]

/-- **A term outside the limits is refused at its fault**, behind any spaces
and whatever comes after it. -/
theorem error_of_misprint {t : Term} (h : ¬t.WithinLimits) {spaces back : List Char}
    (hspaces : Spaces spaces) (hback : Clear Reader.inTerm back) :
    ∃ excerpt, ofChars (spaces ++ (t.text ++ back))
      = .error (.unreadable (Utf8.size spaces + t.faultAt) excerpt) := by
  have hne := List.append_ne_nil_of_left_ne_nil t.text_ne_nil back
  -- The text is parted at the fault, so that its rest is what the scan leaves.
  have hsplit : spaces ++ (t.text ++ back)
      = (spaces ++ t.text.take t.faultAt) ++ (t.text.drop t.faultAt ++ back) := by
    rw [List.append_assoc, ← List.append_assoc (t.text.take t.faultAt), List.take_append_drop]
  have hrest : (Scan.ofText (spaces ++ (t.text ++ back))).rest
      = t.text.drop t.faultAt ++ back := by
    rw [Scan.rest_run_spaces hspaces (t.clear_space_text back) hne]
    exact Scan.rest_run_misprint h hback
  rw [hsplit] at hrest ⊢
  have herror := ofChars_of_rest hrest
    (List.append_ne_nil_of_left_ne_nil (Term.drop_faultAt_ne_nil h) back)
  rw [Utf8.size_append, Term.size_take_faultAt h] at herror
  exact herror

/-! ## §4. What is printed in front of a term. -/

/-- The text in front of the text of a term that comes after other terms: a
minus sign or nothing for the first term, and for a later one the terms before
it and its sign between two spaces. -/
def textBefore (front : List Term) (t : Term) : List Char :=
  match front with
  | [] => if t.isNegative then ['-'] else []
  | _ :: _ => text ⟨front⟩ ++ [' ', operatorSign t.operator, ' ']

/-- In front of a later term: the terms before it and a space, its sign, a space. -/
theorem textBefore_cons (u : Term) (front : List Term) (t : Term) :
    textBefore (u :: front) t
      = (text ⟨u :: front⟩ ++ [' ']) ++ operatorSign t.operator :: [' '] := by
  simp [textBefore]

/-- **The text of an expression, taken apart at one of its terms.** -/
theorem text_split (front : List Term) (t : Term) (back : List Term) :
    text ⟨front ++ t :: back⟩
      = textBefore front t ++ (t.text ++ (back.map Term.addend).flatMap SignedSum.following) := by
  cases front with
  | nil =>
      show SignedSum.leading t.addend ++ _ = _
      unfold SignedSum.leading textBefore
      show (if t.isNegative then _ else _) ++ _ = _
      split <;> simp [Term.addend]
  | cons u front =>
      -- A later term is laid out behind its sign, whatever terms stand before it.
      have hne : (u :: front).map Term.addend ≠ [] := by simp
      have hmap : (u :: front ++ t :: back).map Term.addend
          = (u :: front).map Term.addend ++ t.addend :: back.map Term.addend := by simp
      unfold text
      rw [hmap, SignedSum.text_append hne, List.flatMap_cons, following_addend]
      simp [textBefore, text]

end Expression

/-! ## §5. Every expression without a notation. -/

namespace Expression

/-- In front of the first minus sign nothing can be read. -/
theorem error_of_leading_minus (text : List Char) :
    ∃ excerpt, ofChars ('-' :: text) = .error (.unreadable 0 excerpt) := by
  have hspace : Slot.leadingSpace.pattern.read? ('-' :: text) = some ⟨[], none, '-' :: text⟩ :=
    rfl
  have hterm : Slot.term.pattern.read? ('-' :: text) = none := rfl
  have hrest : (Scan.ofText ('-' :: text)).rest = '-' :: text :=
    (Scan.rest_run_of_some (List.cons_ne_nil _ _) hspace).trans (Scan.rest_run_of_none hterm)
  exact @ofChars_of_rest [] _ hrest (List.cons_ne_nil _ _)

/-- **The first term outside the limits is refused at its fault**, the terms in
front of it being a notation of their own. -/
theorem error_of_first_misprint {front back : List Term} {t : Term}
    (hhead : ∀ u ∈ (front ++ t :: back).head?, u.isNegative = false)
    (hfront : ∀ u ∈ front, u.WithinLimits) (h : ¬t.WithinLimits) :
    ∃ excerpt, ofChars (text ⟨front ++ t :: back⟩)
      = .error (.unreadable (Utf8.size (textBefore front t) + t.faultAt) excerpt) := by
  have hback := clear_inTerm_following (back.map Term.addend)
  rw [text_split]
  cases front with
  | nil =>
      -- The first term: nothing is printed in front of it, not even a sign.
      have hpositive : textBefore [] t = [] := by
        unfold textBefore
        rw [hhead t rfl]
        rfl
      rw [hpositive]
      exact error_of_misprint h spaces_nil hback
  | cons u front =>
      -- A later term: those in front of it are a notation, and a space ends it.
      have hwell : WellFormed ⟨u :: front⟩ := ⟨List.cons_ne_nil _ _, hhead, hfront⟩
      have hok := ofChars_of_spells ((spells_text hwell).append_spaces spaces_singleton)
      obtain ⟨excerpt, herror⟩ := error_of_misprint h spaces_singleton hback
      -- Behind a notation and a sign the rest is read as if it stood alone.
      have hboth := ofChars_append_operator hok t.operator
        ([' '] ++ (t.text ++ (back.map Term.addend).flatMap SignedSum.following))
      have hsize : Utf8.size (textBefore (u :: front) t)
          = Utf8.size (text ⟨u :: front⟩ ++ [' ']) + 1 + Utf8.size [' '] := by
        have hsign : (operatorSign t.operator).utf8Size = 1 := by
          cases t.operator <;> rfl
        rw [textBefore_cons, Utf8.size_append, Utf8.size_cons, hsign]
        omega
      refine ⟨excerpt, ?_⟩
      rw [hsize, textBefore_cons, List.append_assoc _ (operatorSign t.operator :: [' ']),
        Nat.add_assoc _ (Utf8.size [' '])]
      rw [herror] at hboth
      exact hboth

/-- Where not all terms are within the limits there is a first one that is not. -/
theorem exists_first_misprint {terms : List Term} (h : ¬∀ t ∈ terms, t.WithinLimits) :
    ∃ front t back, terms = front ++ t :: back ∧ (∀ u ∈ front, u.WithinLimits) ∧
      ¬t.WithinLimits := by
  have hsplit : terms.takeWhile (fun t => decide t.WithinLimits)
      ++ terms.dropWhile (fun t => decide t.WithinLimits) = terms := List.takeWhile_append_dropWhile
  have hfront : ∀ u ∈ terms.takeWhile (fun t => decide t.WithinLimits), u.WithinLimits :=
    fun u hu => of_decide_eq_true (List.all_eq_true.1 List.all_takeWhile u hu)
  -- Drop what is within the limits; what comes first then is not.
  cases hback : terms.dropWhile (fun t => decide t.WithinLimits) with
  | nil =>
      refine absurd (fun t ht => ?_) h
      exact of_decide_eq_true (List.dropWhile_eq_nil_iff.1 hback t ht)
  | cons t back =>
      have hnot := List.head?_dropWhile_not (fun t : Term => decide t.WithinLimits) terms
      rw [hback] at hsplit hnot
      exact ⟨_, t, back, hsplit.symm, hfront, by simpa using hnot⟩

/-- **WHAT HAS NO NOTATION IS NEVER READ AS ONE.**  The text of an expression
that is not well-formed is refused: as empty when there is no term, at its
beginning when the first term is negative, and else in its first term outside
the limits, at the beginning of that or at the letter behind a count that is
not zero. -/
theorem parse_display_of_not_wellFormed {e : Expression} (h : ¬e.WellFormed) :
    (∃ error, parse e.display = .error error) ∧
      (e.terms = [] → parse e.display = .error .empty) ∧
      (∀ t ∈ e.terms.head?, t.isNegative = true →
        ∃ excerpt, parse e.display = .error (.unreadable 0 excerpt)) ∧
      ∀ front t back, e.terms = front ++ t :: back →
        (∀ u ∈ e.terms.head?, u.isNegative = false) → (∀ u ∈ front, u.WithinLimits) →
        ¬t.WithinLimits →
        ∃ before after excerpt, before.toList = textBefore front t ∧
          e.display = before ++ t.display ++ after ∧
          parse e.display = .error (.unreadable (before.utf8ByteSize + t.faultAt) excerpt) := by
  have hparse : parse e.display = ofChars e.text := by
    unfold parse
    rw [toList_display]
  obtain ⟨terms⟩ := e
  rw [hparse]
  -- Each of the three faults by itself, before it is known which one is there.
  have hempty : terms = [] → ofChars (text ⟨terms⟩) = .error .empty := by
    rintro rfl
    exact ofChars_eq_empty_iff.2 spaces_nil
  have hminus : ∀ t ∈ terms.head?, t.isNegative = true →
      ∃ excerpt, ofChars (text ⟨terms⟩) = .error (.unreadable 0 excerpt) := by
    intro t ht hneg
    obtain ⟨back, rfl⟩ := List.head?_eq_some_iff.1 ht
    have htext := text_split [] t back
    rw [textBefore, if_pos hneg] at htext
    rw [show text ⟨t :: back⟩ = _ from htext]
    exact error_of_leading_minus _
  refine ⟨?_, hempty, hminus, ?_⟩
  · -- One of the three faults is there.
    by_cases hnil : terms = []
    · exact ⟨_, hempty hnil⟩
    by_cases hhead : ∀ u ∈ terms.head?, u.isNegative = false
    · obtain ⟨front, t, back, rfl, hfront, ht⟩ :=
        exists_first_misprint fun hall => h ⟨hnil, hhead, hall⟩
      obtain ⟨excerpt, herror⟩ := error_of_first_misprint hhead hfront ht
      exact ⟨_, herror⟩
    · simp only [not_forall, Bool.not_eq_false] at hhead
      obtain ⟨t, ht, hneg⟩ := hhead
      obtain ⟨excerpt, herror⟩ := hminus t ht hneg
      exact ⟨_, herror⟩
  · rintro front t back rfl hhead hfront ht
    obtain ⟨excerpt, herror⟩ := error_of_first_misprint hhead hfront ht
    -- The text is parted at the term, and its front part has the bytes to count.
    have hdisplay : display ⟨front ++ t :: back⟩ = String.ofList (textBefore front t) ++ t.display
        ++ String.ofList ((back.map Term.addend).flatMap SignedSum.following) := by
      rw [← String.toList_inj, toList_display, text_split]
      simp [Term.display]
    refine ⟨String.ofList (textBefore front t), _, excerpt, String.toList_ofList, hdisplay, ?_⟩
    rw [← Utf8.size_toList, String.toList_ofList]
    exact herror

/-- The second term has thirty dice without sides: their count is read as a
constant, and the letter behind it is the fault. -/
theorem parse_display_of_no_sides :
    (∃ error, parse (display ⟨[.constant ⟨2⟩, .dice ⟨30, 0, .negative⟩, .constant ⟨0⟩]⟩)
      = .error error) ∧
    ∃ before after excerpt, before.toList = textBefore [.constant ⟨2⟩] (.dice ⟨30, 0, .negative⟩) ∧
      display ⟨[.constant ⟨2⟩, .dice ⟨30, 0, .negative⟩, .constant ⟨0⟩]⟩
        = before ++ Term.display (.dice ⟨30, 0, .negative⟩) ++ after ∧
      parse (display ⟨[.constant ⟨2⟩, .dice ⟨30, 0, .negative⟩, .constant ⟨0⟩]⟩)
        = .error (.unreadable
            (before.utf8ByteSize + Term.faultAt (.dice ⟨30, 0, .negative⟩)) excerpt) := by
  have h : ¬WellFormed ⟨[.constant ⟨2⟩, .dice ⟨30, 0, .negative⟩, .constant ⟨0⟩]⟩ := by decide
  obtain ⟨herror, -, -, hfirst⟩ := parse_display_of_not_wellFormed h
  exact ⟨herror, hfirst [.constant ⟨2⟩] (.dice ⟨30, 0, .negative⟩) [.constant ⟨0⟩] rfl
    (by decide) (by decide) (by decide)⟩

example :
    parse (display ⟨[.constant ⟨2⟩, .dice ⟨30, 0, .negative⟩, .constant ⟨0⟩]⟩)
      = .error (.unreadable 6 "d0 + 0") := by cbv

end Expression

end TabletopDice
