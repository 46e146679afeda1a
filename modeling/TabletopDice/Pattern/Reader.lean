/-
  TabletopDice.Pattern.Reader
  ──────────────────────────────────────
  **THE FOUR READERS: each looks at the front of a text and either takes its
  piece off or leaves the text alone.**

    • a group of dice: an optional count of at most `maxCount`, the letter `d`
      in either case, and a number of sides or `%` for a hundred;
    • a constant: a numeral of 32 bits;
    • spaces, as many as there are, also none;
    • an operator.

  A match keeps what was read, so a text is always what was read followed by
  the rest (`read?_append`).  Only spaces may read nothing
  (`text_ne_nil_of_read?`).
-/
import TabletopDice.Token
import TabletopDice.Text.Numeral

namespace TabletopDice

/-! ## §1. Matches. -/

/-- What a reader took off the front of a text: the characters, the token they
stand for, and the rest. -/
structure Match where
  text : List Char
  token : Option Token
  rest : List Char
deriving DecidableEq

namespace Reader

/-! ## §2. The readers. -/

/-- The greatest number that a numeral may have, the count of a group apart. -/
def maxNumber : Nat := UInt32.size - 1

theorem toNat_ofNat_of_le {n : Nat} (h : n ≤ maxNumber) : (UInt32.ofNat n).toNat = n := by
  have hmax : maxNumber = UInt32.size - 1 := rfl
  have hsize : 0 < UInt32.size := by decide
  exact UInt32.toNat_ofNat_of_lt' (by omega)

/-- The number of sides that a percent sign stands for. -/
def percentileSides : Nat := 100

/-- The count of a group: one if no digit is written. -/
def count? (source : List Char) : Option Numeral :=
  match source.takeWhile Char.isDigit with
  -- Without a digit there is one die; digits that are no numeral are no count.
  | [] => some ⟨[], 1, source⟩
  | _ :: _ => Numeral.read? maxCount.toNat source

/-- The number of sides of a group. -/
def sides? (source : List Char) : Option Numeral :=
  match source with
  | '%' :: rest => some ⟨['%'], percentileSides, rest⟩
  | _ => Numeral.read? maxNumber source

/-- What a count begins: the letter right behind it, and the sides.  The count
took every digit, so no digit stands between. -/
def diceAfter? (count : Numeral) : Option Match :=
  match count.rest with
  | [] => none
  | letter :: afterLetter =>
      if letter = 'd' ∨ letter = 'D' then
        (sides? afterLetter).map fun sides =>
          { text := count.text ++ letter :: sides.text
            token := some (.term (.dice
              (Dice.clamped (UInt32.ofNat count.value) (UInt32.ofNat sides.value))))
            rest := sides.rest }
      else none

/-- A group of dice, positive. -/
def dice? (source : List Char) : Option Match := (count? source).bind diceAfter?

/-- A constant, positive. -/
def constant? (source : List Char) : Option Match :=
  (Numeral.read? maxNumber source).map fun n =>
    { text := n.text
      token := some (.term (.constant (.ofUInt32 (UInt32.ofNat n.value))))
      rest := n.rest }

/-- The spaces in front of a text.  This always matches. -/
def space? (source : List Char) : Option Match :=
  some
    { text := source.takeWhile (· = ' ')
      token := none
      rest := source.dropWhile (· = ' ') }

/-- A plus or a minus sign. -/
def operator? : List Char → Option Match
  | '+' :: rest => some ⟨['+'], some (.operator .add), rest⟩
  | '-' :: rest => some ⟨['-'], some (.operator .sub), rest⟩
  | _ => none

/-! ## §3. Reading splits the text. -/

theorem count?_append {source : List Char} {n : Numeral} (h : count? source = some n) :
    n.text ++ n.rest = source := by
  simp only [count?] at h
  split at h
  · cases h
    rfl
  · exact Numeral.read?_append h

/-- Without a percent sign the sides are a number. -/
theorem sides?_of_head_ne {source : List Char} (h : source.head? ≠ some '%') :
    sides? source = Numeral.read? maxNumber source := by
  unfold sides?
  split
  · exact absurd rfl h
  · rfl

theorem sides?_append {source : List Char} {n : Numeral} (h : sides? source = some n) :
    n.text ++ n.rest = source := by
  simp only [sides?] at h
  split at h
  · cases h
    rfl
  · exact Numeral.read?_append h

/-- **A group is a count, a letter and a number of sides**, each right behind
the one before. -/
theorem dice?_eq_some_iff {source : List Char} {m : Match} :
    dice? source = some m ↔
      ∃ count letter afterLetter sides,
        count? source = some count ∧ count.rest = letter :: afterLetter ∧
          (letter = 'd' ∨ letter = 'D') ∧ sides? afterLetter = some sides ∧
            m = ⟨count.text ++ letter :: sides.text,
              some (.term (.dice
                (Dice.clamped (UInt32.ofNat count.value) (UInt32.ofNat sides.value)))),
              sides.rest⟩ := by
  constructor
  · intro h
    obtain ⟨count, hcount, hafter⟩ := Option.bind_eq_some_iff.1 h
    -- Nothing, or another character, behind the count makes no group.
    unfold diceAfter? at hafter
    split at hafter
    · cases hafter
    · next letter afterLetter hrest =>
        split at hafter
        · next hl =>
            obtain ⟨sides, hsides, hm⟩ := Option.map_eq_some_iff.1 hafter
            exact ⟨count, letter, afterLetter, sides, hcount, hrest, hl, hsides, hm.symm⟩
        · cases hafter
  · rintro ⟨count, letter, afterLetter, sides, hcount, hrest, hl, hsides, rfl⟩
    refine Option.bind_eq_some_iff.2 ⟨count, hcount, ?_⟩
    unfold diceAfter?
    rw [hrest]
    show (if letter = 'd' ∨ letter = 'D' then _ else none) = _
    rw [if_pos hl, hsides]
    rfl

theorem dice?_append {source : List Char} {m : Match} (h : dice? source = some m) :
    m.text ++ m.rest = source := by
  obtain ⟨count, letter, afterLetter, sides, hcount, hrest, -, hsides, rfl⟩ :=
    dice?_eq_some_iff.1 h
  rw [← count?_append hcount, hrest, ← sides?_append hsides]
  simp

theorem dice?_text_ne_nil {source : List Char} {m : Match} (h : dice? source = some m) :
    m.text ≠ [] := by
  obtain ⟨count, letter, afterLetter, sides, -, -, -, -, rfl⟩ := dice?_eq_some_iff.1 h
  simp

theorem constant?_append {source : List Char} {m : Match} (h : constant? source = some m) :
    m.text ++ m.rest = source := by
  obtain ⟨n, hn, rfl⟩ := Option.map_eq_some_iff.1 h
  exact Numeral.read?_append hn

theorem constant?_text_ne_nil {source : List Char} {m : Match}
    (h : constant? source = some m) : m.text ≠ [] := by
  obtain ⟨n, hn, rfl⟩ := Option.map_eq_some_iff.1 h
  exact Numeral.text_ne_nil hn

theorem space?_append {source : List Char} {m : Match} (h : space? source = some m) :
    m.text ++ m.rest = source := by
  cases h
  exact List.takeWhile_append_dropWhile

theorem operator?_append {source : List Char} {m : Match} (h : operator? source = some m) :
    m.text ++ m.rest = source := by
  simp only [operator?] at h
  split at h
  · cases h
    rfl
  · cases h
    rfl
  · cases h

theorem operator?_text_ne_nil {source : List Char} {m : Match}
    (h : operator? source = some m) : m.text ≠ [] := by
  simp only [operator?] at h
  split at h
  · cases h
    simp
  · cases h
    simp
  · cases h

end Reader

end TabletopDice
