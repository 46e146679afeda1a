/-
  TabletopDice.Proofs.Grammar.Term
  ──────────────────────────────────────
  **THE READERS AND THE GRAMMAR AGREE ON TERMS.**

  A reader looks for the longest run of digits and never tries a shorter one;
  the grammar only says which texts are numbers, counts, sides and terms.  The
  two meet in both directions, one lemma each for every rule of the grammar:

    • what a reader takes off the front is a text of the grammar
      (`termText_of_read?`),
    • a text of the grammar, standing alone, is read whole and as the term it
      spells (`read?_of_termText`); `Slot.read?_append` then puts any clear
      text behind it.

  A group and a constant both begin with digits.  A constant is never taken
  for a group, since no letter stands behind its digits.
-/
import Mathlib.Data.List.TakeWhile
import TabletopDice.Expression.Grammar
import TabletopDice.Proofs.Scan.Continuation

namespace TabletopDice

open Grammar

/-! ## §1. Numbers. -/

/-- A digit other than zero counts for at least one. -/
theorem Digits.one_le_of_ne_zero {c : Char} (hd : c.isDigit = true) (hz : c ≠ '0') :
    1 ≤ c.toNat - '0'.toNat := by
  have hlo : '0'.toNat ≤ c.toNat := (Char.isDigit_iff_toNat.1 hd).1
  have hne : c.toNat ≠ '0'.toNat := fun heq => hz (Char.toNat_inj.1 heq)
  omega

namespace Grammar.Spelled

/-- **A number is never zero**: its first digit is not. -/
theorem one_le {limit : Nat} {text : List Char} {v : Nat} (h : Spelled limit text v) :
    1 ≤ v := by
  -- A number has a first digit, and that is not zero.
  cases text with
  | nil => exact absurd rfl h.nonempty
  | cons c text =>
      have hz : c ≠ '0' := fun hc => h.no_leading_zero (congrArg some hc)
      have hc : 1 ≤ c.toNat - '0'.toNat :=
        Digits.one_le_of_ne_zero (h.digits c List.mem_cons_self) hz
      have hpow : 1 ≤ 10 ^ text.length := Nat.one_le_pow _ _ (by omega)
      -- The first digit alone weighs a power of ten.
      have hv := h.value_eq
      rw [Nat.ofDigitChars_cons, Nat.ofDigitChars_eq_ofDigitChars_zero] at hv
      have hle : 1 * 1 ≤ 10 ^ text.length * (10 * 0 + (c.toNat - '0'.toNat)) :=
        Nat.mul_le_mul hpow (by omega)
      omega

theorem of_read? {limit : Nat} {source : List Char} {n : Numeral}
    (h : Numeral.read? limit source = some n) : Spelled limit n.text n.value := by
  obtain ⟨htext, -, hne, hz, hv, hle⟩ := Numeral.read?_eq_some_iff.1 h
  refine ⟨?_, hne, hz, hv, hle⟩
  intro c hc
  rw [htext] at hc
  exact List.all_eq_true.1 List.all_takeWhile c hc

theorem read? {limit : Nat} {text : List Char} {v : Nat} (h : Spelled limit text v) :
    Numeral.read? limit text = some ⟨text, v, []⟩ := by
  refine Numeral.read?_eq_some_iff.2
    ⟨?_, ?_, h.nonempty, h.no_leading_zero, h.value_eq, h.within⟩
  · show text = text.takeWhile Char.isDigit
    rw [List.takeWhile_eq_self_iff.2 h.digits]
  · show [] = text.dropWhile Char.isDigit
    rw [List.dropWhile_eq_nil_iff.2 h.digits]

/-- A number begins with a digit, so with nothing else that is asked for. -/
theorem head?_ne {limit : Nat} {text : List Char} {v : Nat} (h : Spelled limit text v)
    {c : Char} (hc : c.isDigit = false) : text.head? ≠ some c := by
  intro hhead
  have hd := h.digits c (List.mem_of_mem_head? hhead)
  rw [hc] at hd
  cases hd

end Grammar.Spelled

/-! ## §2. Counts and sides. -/

namespace Grammar

/-- What the count reader takes is a count; it takes one even where none is written. -/
theorem CountText.of_count? {source : List Char} {n : Numeral}
    (h : Reader.count? source = some n) : CountText n.text n.value := by
  unfold Reader.count? at h
  -- No digits: the count is left out and stands for one.
  split at h
  · cases h
    exact .omitted
  · exact .written (Spelled.of_read? h)

theorem CountText.count? {text : List Char} {n : Nat} (h : CountText text n) :
    Reader.count? text = some ⟨text, n, []⟩ := by
  cases h with
  | omitted => rfl
  | written h =>
      -- The digits are there, so this is not the count that was left out.
      have hread := h.read?
      unfold Reader.count?
      rw [List.takeWhile_eq_self_iff.2 h.digits]
      split
      · exact absurd rfl h.nonempty
      · exact hread

/-- **A count is at least one and at most `maxCount`.** -/
theorem CountText.limits {text : List Char} {n : Nat} (h : CountText text n) :
    1 ≤ n ∧ n ≤ maxCount.toNat := by
  cases h with
  | omitted => decide
  | written h => exact ⟨h.one_le, h.within⟩

/-- A count fits its 32 bits, so it keeps its value there. -/
theorem CountText.toNat_ofNat {text : List Char} {n : Nat} (h : CountText text n) :
    (UInt32.ofNat n).toNat = n :=
  Reader.toNat_ofNat_of_le (Nat.le_trans h.limits.2 (by decide))

/-- What the reader of sides takes is a number of sides. -/
theorem SidesText.of_sides? {source : List Char} {n : Numeral}
    (h : Reader.sides? source = some n) : SidesText n.text n.value := by
  unfold Reader.sides? at h
  split at h
  · cases h
    exact .percentile
  · exact .written (Spelled.of_read? h)

theorem SidesText.sides? {text : List Char} {n : Nat} (h : SidesText text n) :
    Reader.sides? text = some ⟨text, n, []⟩ := by
  cases h with
  | percentile => rfl
  | written h =>
      -- A number does not begin with a percent sign.
      rw [Reader.sides?_of_head_ne (h.head?_ne (by decide))]
      exact h.read?

/-- **A die has at least one side, and 32 bits hold their number.** -/
theorem SidesText.limits {text : List Char} {n : Nat} (h : SidesText text n) :
    1 ≤ n ∧ n ≤ Reader.maxNumber := by
  cases h with
  | percentile => decide
  | written h => exact ⟨h.one_le, h.within⟩

/-- A number of sides keeps its value in 32 bits. -/
theorem SidesText.toNat_ofNat {text : List Char} {n : Nat} (h : SidesText text n) :
    (UInt32.ofNat n).toNat = n := Reader.toNat_ofNat_of_le h.limits.2

end Grammar

/-! ## §3. Operators. -/

/-- An operator is its sign, and a sign is read as its operator. -/
theorem Reader.operator?_eq_some_iff {source : List Char} {m : Match} :
    operator? source = some m ↔
      ∃ op rest, source = operatorSign op :: rest ∧
        m = ⟨[operatorSign op], some (.operator op), rest⟩ := by
  constructor
  · intro h
    -- There are two signs, and each of them is the sign of its operator.
    unfold operator? at h
    split at h
    · next rest =>
        cases h
        exact ⟨.add, rest, rfl, rfl⟩
    · next rest =>
        cases h
        exact ⟨.sub, rest, rfl, rfl⟩
    · cases h
  · rintro ⟨op, rest, rfl, rfl⟩
    cases op with
    | add => rfl
    | sub => rfl

/-- **A sign stops everything that goes on by itself**: it is no digit, no
letter of a group and no space. -/
theorem Barrier.operatorSign (op : Operator) (text : List Char) :
    Barrier (operatorSign op :: text) := by
  cases op with
  | add => exact Barrier.cons (by decide) (by decide) text
  | sub => exact Barrier.cons (by decide) (by decide) text

/-! ## §4. Terms. -/

/-- **The group that a count and a number of sides stand for is within the
limits.** -/
theorem Dice.withinLimits_of_texts {count sides : List Char} {c n : Nat}
    (hc : CountText count c) (hn : SidesText sides n) :
    Dice.WithinLimits ⟨UInt32.ofNat c, UInt32.ofNat n, .positive⟩ := by
  refine ⟨?_, ?_, ?_⟩
  · rw [UInt32.le_iff_toNat_le, hc.toNat_ofNat]
    exact hc.limits.1
  · rw [UInt32.le_iff_toNat_le, hc.toNat_ofNat]
    exact hc.limits.2
  · rw [UInt32.le_iff_toNat_le, hn.toNat_ofNat]
    exact hn.limits.1

/-- So the reader, which brings it there, leaves it as it is. -/
theorem Dice.clamped_of_texts {count sides : List Char} {c n : Nat} (hc : CountText count c)
    (hn : SidesText sides n) :
    Dice.clamped (UInt32.ofNat c) (UInt32.ofNat n)
      = ⟨UInt32.ofNat c, UInt32.ofNat n, .positive⟩ := by
  obtain ⟨hlo, hhi, hs⟩ := Dice.withinLimits_of_texts hc hn
  exact Dice.clamped_eq hlo hhi hs

theorem Grammar.termText_of_dice? {source : List Char} {m : Match}
    (h : Reader.dice? source = some m) :
    ∃ t, TermText m.text t ∧ m.token = some (.term t) := by
  obtain ⟨count, letter, afterLetter, sides, hcount, -, hl, hsides, rfl⟩ :=
    Reader.dice?_eq_some_iff.1 h
  have hc := CountText.of_count? hcount
  have hn := SidesText.of_sides? hsides
  -- The reader clamps, the grammar does not; within the limits that is the same.
  rw [Dice.clamped_of_texts hc hn]
  exact ⟨_, .dice hc hl hn, rfl⟩

theorem Grammar.termText_of_constant? {source : List Char} {m : Match}
    (h : Reader.constant? source = some m) :
    ∃ t, TermText m.text t ∧ m.token = some (.term t) := by
  obtain ⟨n, hn, rfl⟩ := Option.map_eq_some_iff.1 h
  exact ⟨_, .constant (Spelled.of_read? hn), rfl⟩

/-- The term slot looks for a group, and then for a constant. -/
theorem Slot.read?_term (source : List Char) :
    Slot.term.pattern.read? source = (Reader.dice? source).or (Reader.constant? source) :=
  Pattern.read?_either (.leaf .dice) (.leaf .constant) source

/-- **What the term slot takes off the front is a term of the grammar.** -/
theorem Grammar.termText_of_read? {source : List Char} {m : Match}
    (h : Slot.term.pattern.read? source = some m) :
    ∃ t, TermText m.text t ∧ m.token = some (.term t) := by
  rw [Slot.read?_term, Option.or_eq_some_iff] at h
  -- A group, or a constant where no group could be read.
  rcases h with h | ⟨-, h⟩
  · exact termText_of_dice? h
  · exact termText_of_constant? h

/-- **A term of the grammar is read whole, as the term that it spells.** -/
theorem Grammar.read?_of_termText {text : List Char} {t : Term} (h : TermText text t) :
    Slot.term.pattern.read? text = some ⟨text, some (.term t), []⟩ := by
  rw [Slot.read?_term]
  cases h with
  | constant h =>
      -- The group is tried first, so it has to be shown that it fails here.
      have hdice : Reader.dice? text = none := by
        rw [Option.eq_none_iff_forall_ne_some]
        intro m hm
        obtain ⟨count, letter, afterLetter, sides, hcount, hrest, hl, -⟩ :=
          Reader.dice?_eq_some_iff.1 hm
        -- The letter would have to be one of the digits.
        have hmem : letter ∈ text := by
          rw [← Reader.count?_append hcount, hrest]
          exact List.mem_append_right _ List.mem_cons_self
        have hd := h.digits letter hmem
        rcases hl with rfl | rfl
        · exact absurd hd (by decide)
        · exact absurd hd (by decide)
      rw [hdice, Option.none_or, Reader.constant?, h.read?]
      rfl
  | @dice count sides letter c n hc hl hn =>
      -- The letter ends the count, and the sides end with the text.
      have hclear : Clear Char.isDigit (letter :: sides) := by
        rw [Clear.cons_iff]
        rcases hl with rfl | rfl
        · decide
        · decide
      have hdice : Reader.dice? (count ++ letter :: sides)
          = some ⟨count ++ letter :: sides,
              some (.term (.dice ⟨UInt32.ofNat c, UInt32.ofNat n, .positive⟩)), []⟩ := by
        refine Reader.dice?_eq_some_iff.2
          ⟨⟨count, c, letter :: sides⟩, letter, sides, ⟨sides, n, []⟩, ?_, rfl, hl,
            hn.sides?, ?_⟩
        · rw [Reader.count?_append_of_clear hclear, hc.count?]
          rfl
        · rw [Dice.clamped_of_texts hc hn]
      rw [hdice, Option.some_or]

end TabletopDice
