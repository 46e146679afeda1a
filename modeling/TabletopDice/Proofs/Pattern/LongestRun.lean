/-
  TabletopDice.Proofs.Pattern.LongestRun
  ──────────────────────────────────────
  **A TERM IS READ BY ITS LONGEST RUNS OF DIGITS, and in no other way.**

  The digits in front of a text are one run, and a reader takes all of it or
  finds nothing: a run that begins with a zero, or whose value is too large, is
  not tried in part.  `LongestRun` says what the longest run is without saying
  how it is found; `NumberInFront` and `DiceInFront` say what stands in front of
  a text.

    • `longestRun_iff` — there is one longest run, the one that is taken,
    • `Numeral.read?_eq_some_iff_inFront` — numbers,
    • `Reader.constant?_eq_some_iff`, `Reader.dice?_eq_some_iff_inFront` —
      what the readers of terms find, and all that they find,
    • `Reader.reads_longest_runs` — values and rests, and the constant that
      stands in front of a group with a count.
-/
import TabletopDice.Proofs.Grammar.Term

namespace TabletopDice

open Grammar

/-! ## §1. Longest runs. -/

/-- **The longest run of a class in front of a text**: no run of the class that
the text begins with goes on beyond it. -/
structure LongestRun (p : Char → Bool) (run source : List Char) : Prop where
  front : run <+: source
  inside : ∀ c ∈ run, p c = true
  longest : ∀ other, other <+: source → (∀ c ∈ other, p c = true) → other <+: run

/-- A run in front of a text is taken from it, with what goes on behind it. -/
theorem isPrefix_takeWhile {p : Char → Bool} {run source : List Char} (hfront : run <+: source)
    (hinside : ∀ c ∈ run, p c = true) : run <+: source.takeWhile p := by
  obtain ⟨rest, rfl⟩ := hfront
  rw [List.takeWhile_append_of_pos hinside]
  exact List.prefix_append run _

/-- **Every text has one longest run of a class in front.** -/
theorem longestRun_iff {p : Char → Bool} {run source : List Char} :
    LongestRun p run source ↔ run = source.takeWhile p := by
  have hinside : ∀ c ∈ source.takeWhile p, p c = true := List.all_eq_true.1 List.all_takeWhile
  constructor
  · intro h
    -- Each of the two runs goes on at least as far as the other.
    have hle := isPrefix_takeWhile h.front h.inside
    have hge := h.longest _ (List.takeWhile_prefix p) hinside
    exact hle.eq_of_length_le hge.length_le
  · rintro rfl
    exact ⟨List.takeWhile_prefix p, hinside, fun _ hfront hother =>
      isPrefix_takeWhile hfront hother⟩

/-- What stands behind the longest run. -/
theorem LongestRun.rest_eq {p : Char → Bool} {run rest source : List Char}
    (h : LongestRun p run source) (hsplit : source = run ++ rest) :
    rest = source.dropWhile p := by
  have hboth : run ++ rest = run ++ source.dropWhile p := by
    rw [← hsplit, longestRun_iff.1 h, List.takeWhile_append_dropWhile]
  exact List.append_cancel_left hboth

/-! ## §2. Numbers. -/

/-- **A number stands in front of a text**: the longest run of digits is one
that spells it. -/
structure NumberInFront (limit : Nat) (source digits : List Char) (value : Nat)
    (rest : List Char) : Prop where
  split : source = digits ++ rest
  longest : LongestRun Char.isDigit digits source
  spelled : Spelled limit digits value

/-- **A number is read where one stands in front**, and nothing else is read as one. -/
theorem Numeral.read?_eq_some_iff_inFront {limit : Nat} {source : List Char} {n : Numeral} :
    read? limit source = some n ↔ NumberInFront limit source n.text n.value n.rest := by
  constructor
  · intro h
    obtain ⟨htext, -⟩ := read?_eq_some_iff.1 h
    exact ⟨(read?_append h).symm, longestRun_iff.2 htext, Spelled.of_read? h⟩
  · rintro ⟨hsplit, hlongest, hspelled⟩
    exact read?_eq_some_iff.2 ⟨longestRun_iff.1 hlongest, hlongest.rest_eq hsplit,
      hspelled.nonempty, hspelled.no_leading_zero, hspelled.value_eq, hspelled.within⟩

/-! ## §3. Constants. -/

/-- What was read stands for a constant of this value. -/
def Match.IsConstant (m : Match) (value : Nat) : Prop :=
  ∃ c : Constant, m.token = some (.term (.constant c)) ∧ c.value.toInt = value

namespace Reader

/-- **A constant is found where a number stands in front**, and nothing else is
found as one. -/
theorem constant?_eq_some_iff {source : List Char} {m : Match} :
    constant? source = some m ↔
      ∃ v, NumberInFront maxNumber source m.text v m.rest ∧
        m.token = some (.term (.constant (.ofUInt32 (UInt32.ofNat v)))) := by
  constructor
  · intro h
    obtain ⟨n, hn, rfl⟩ := Option.map_eq_some_iff.1 h
    exact ⟨n.value, Numeral.read?_eq_some_iff_inFront.1 hn, rfl⟩
  · obtain ⟨text, token, rest⟩ := m
    rintro ⟨v, hnumber, rfl⟩
    have hread : Numeral.read? maxNumber source = some ⟨text, v, rest⟩ :=
      Numeral.read?_eq_some_iff_inFront.2 hnumber
    exact Option.map_eq_some_iff.2 ⟨_, hread, rfl⟩

/-- The reader of constants finds one of this value, and leaves this rest. -/
def FindsConstant (source : List Char) (value : Nat) (rest : List Char) : Prop :=
  ∃ m, constant? source = some m ∧ m.IsConstant value ∧ m.rest = rest

/-- **Which constants are found.** -/
theorem findsConstant_iff {source : List Char} {v : Nat} {rest : List Char} :
    FindsConstant source v rest ↔ ∃ digits, NumberInFront maxNumber source digits v rest := by
  constructor
  · rintro ⟨m, hm, ⟨c, htoken, hvalue⟩, rfl⟩
    obtain ⟨w, hnumber, htoken'⟩ := constant?_eq_some_iff.1 hm
    rw [htoken'] at htoken
    cases htoken
    -- The token holds the value that is spelled.
    have hw := toNat_ofNat_of_le hnumber.spelled.within
    rw [Constant.toInt_ofUInt32] at hvalue
    obtain rfl : w = v := by omega
    exact ⟨m.text, hnumber⟩
  · rintro ⟨digits, hnumber⟩
    have hv := toNat_ofNat_of_le hnumber.spelled.within
    refine ⟨⟨digits, some (.term (.constant (.ofUInt32 (UInt32.ofNat v)))), rest⟩,
      constant?_eq_some_iff.2 ⟨v, hnumber, rfl⟩, ⟨_, rfl, ?_⟩, rfl⟩
    rw [Constant.toInt_ofUInt32, hv]

end Reader

/-! ## §4. Groups of dice. -/

/-- **A group of dice stands in front of a text**: the longest run of digits,
which is its count or empty, a letter, and then a percent sign or the number of
sides. -/
structure DiceInFront (source count : List Char) (c : Nat) (letter : Char)
    (sides : List Char) (n : Nat) (rest : List Char) : Prop where
  split : source = count ++ letter :: (sides ++ rest)
  longest : LongestRun Char.isDigit count source
  count : CountText count c
  letter : letter = 'd' ∨ letter = 'D'
  sides : (sides = ['%'] ∧ n = Reader.percentileSides) ∨
    NumberInFront Reader.maxNumber (sides ++ rest) sides n rest

/-- The sides of a group in front are a text of the grammar. -/
theorem DiceInFront.sidesText {source count sides rest : List Char} {c n : Nat} {letter : Char}
    (h : DiceInFront source count c letter sides n rest) : SidesText sides n := by
  rcases h.sides with ⟨rfl, rfl⟩ | hnumber
  · exact .percentile
  · exact .written hnumber.spelled

/-- What was read stands for a positive group of dice. -/
def Match.IsDice (m : Match) (count sides : Nat) : Prop :=
  ∃ d : Dice, m.token = some (.term (.dice d)) ∧ d.count.toNat = count ∧
    d.sides.toNat = sides ∧ d.sign = .positive

/-- A group is no constant. -/
theorem Match.IsDice.token_ne {m k : Match} {count sides v : Nat} (hm : m.IsDice count sides)
    (hk : k.IsConstant v) : m.token ≠ k.token := by
  obtain ⟨d, hd, -⟩ := hm
  obtain ⟨c, hc, -⟩ := hk
  rw [hd, hc]
  intro heq
  cases heq

namespace Reader

/-- A count is found where the longest run of digits is one, which may be left out. -/
theorem count?_eq_some_iff {source : List Char} {n : Numeral} :
    count? source = some n ↔
      source = n.text ++ n.rest ∧ LongestRun Char.isDigit n.text source ∧
        CountText n.text n.value := by
  constructor
  · intro h
    refine ⟨(count?_append h).symm, ?_, CountText.of_count? h⟩
    rw [longestRun_iff]
    unfold count? at h
    split at h
    · next hnone =>
        cases h
        exact hnone.symm
    · exact (Numeral.read?_eq_some_iff.1 h).1
  · obtain ⟨text, value, rest⟩ := n
    rintro ⟨hsplit, hlongest, hcount⟩
    have hrun : text = source.takeWhile Char.isDigit := longestRun_iff.1 hlongest
    unfold count?
    rw [← hrun]
    -- Where no digit stands in front, the count is left out; else it is written.
    cases hcount with
    | omitted => rw [show source = rest from hsplit]
    | written hspelled =>
        have hne : text ≠ [] := hspelled.nonempty
        split
        · exact absurd rfl hne
        · exact Numeral.read?_eq_some_iff_inFront.2 ⟨hsplit, hlongest, hspelled⟩

/-- Sides are found where a percent sign stands in front, or a number. -/
theorem sides?_eq_some_iff {source : List Char} {n : Numeral} :
    sides? source = some n ↔
      source = n.text ++ n.rest ∧ ((n.text = ['%'] ∧ n.value = percentileSides) ∨
        NumberInFront maxNumber source n.text n.value n.rest) := by
  constructor
  · intro h
    refine ⟨(sides?_append h).symm, ?_⟩
    unfold sides? at h
    split at h
    · cases h
      exact .inl ⟨rfl, rfl⟩
    · exact .inr (Numeral.read?_eq_some_iff_inFront.1 h)
  · obtain ⟨text, value, rest⟩ := n
    rintro ⟨rfl, ⟨rfl, rfl⟩ | hnumber⟩
    · rfl
    · have hne : (text ++ rest).head? ≠ some '%' := by
        -- The text begins with the number, and no number with a percent sign.
        have htext : text.head? ≠ some '%' := hnumber.spelled.head?_ne (by decide)
        rw [List.head?_append]
        cases text with
        | nil => exact absurd rfl hnumber.spelled.nonempty
        | cons digit digits => exact htext
      rw [sides?_of_head_ne hne]
      exact Numeral.read?_eq_some_iff_inFront.2 hnumber

/-- **A group is found where one stands in front**, and nothing else is found
as one. -/
theorem dice?_eq_some_iff_inFront {source : List Char} {m : Match} :
    dice? source = some m ↔
      ∃ count c letter sides n, DiceInFront source count c letter sides n m.rest ∧
        m.text = count ++ letter :: sides ∧
        m.token = some (.term (.dice ⟨UInt32.ofNat c, UInt32.ofNat n, .positive⟩)) := by
  constructor
  · intro h
    obtain ⟨count, letter, afterLetter, sides, hcount, hrest, hletter, hsides, rfl⟩ :=
      dice?_eq_some_iff.1 h
    -- The count and the sides were read one after the other, with the letter between.
    obtain ⟨hsplit, hlongest, hcountText⟩ := count?_eq_some_iff.1 hcount
    obtain ⟨rfl, hnumber⟩ := sides?_eq_some_iff.1 hsides
    have hdice : DiceInFront source count.text count.value letter sides.text sides.value
        sides.rest := ⟨by rw [hsplit, hrest], hlongest, hcountText, hletter, hnumber⟩
    refine ⟨_, _, _, _, _, hdice, rfl, ?_⟩
    rw [Dice.clamped_of_texts hcountText hdice.sidesText]
  · obtain ⟨text, token, rest⟩ := m
    rintro ⟨count, c, letter, sides, n, hdice, rfl, rfl⟩
    have hcount : count? source = some ⟨count, c, letter :: (sides ++ rest)⟩ :=
      count?_eq_some_iff.2 ⟨hdice.split, hdice.longest, hdice.count⟩
    have hsides : sides? (sides ++ rest) = some ⟨sides, n, rest⟩ :=
      sides?_eq_some_iff.2 ⟨rfl, hdice.sides⟩
    refine dice?_eq_some_iff.2 ⟨_, letter, _, _, hcount, rfl, hdice.letter, hsides, ?_⟩
    rw [Dice.clamped_of_texts hdice.count hdice.sidesText]

/-- The reader of groups finds one of this count and number of sides, and leaves
this rest. -/
def FindsDice (source : List Char) (count sides : Nat) (rest : List Char) : Prop :=
  ∃ m, dice? source = some m ∧ m.IsDice count sides ∧ m.rest = rest

/-- The group that stands in front has its count and its number of sides. -/
theorem isDice_of_inFront {source count sides rest : List Char} {c n : Nat} {letter : Char}
    {m : Match} (h : DiceInFront source count c letter sides n rest)
    (htoken : m.token = some (.term (.dice ⟨UInt32.ofNat c, UInt32.ofNat n, .positive⟩))) :
    m.IsDice c n :=
  ⟨_, htoken, h.count.toNat_ofNat, h.sidesText.toNat_ofNat, rfl⟩

/-- **Which groups are found.** -/
theorem findsDice_iff {source : List Char} {c n : Nat} {rest : List Char} :
    FindsDice source c n rest ↔
      ∃ count letter sides, DiceInFront source count c letter sides n rest := by
  constructor
  · rintro ⟨m, hm, ⟨d, htoken, rfl, rfl, -⟩, rfl⟩
    obtain ⟨count, c, letter, sides, n, hdice, -, htoken'⟩ := dice?_eq_some_iff_inFront.1 hm
    rw [htoken'] at htoken
    cases htoken
    -- Both numbers fit 32 bits, so the group holds the values that are spelled.
    have hc : (UInt32.ofNat c).toNat = c := hdice.count.toNat_ofNat
    have hn : (UInt32.ofNat n).toNat = n := hdice.sidesText.toNat_ofNat
    refine ⟨count, letter, sides, ?_⟩
    rw [hc, hn]
    exact hdice
  · rintro ⟨count, letter, sides, hdice⟩
    exact ⟨⟨count ++ letter :: sides,
        some (.term (.dice ⟨UInt32.ofNat c, UInt32.ofNat n, .positive⟩)), rest⟩,
      dice?_eq_some_iff_inFront.2 ⟨_, _, _, _, _, hdice, rfl, rfl⟩, isDice_of_inFront hdice rfl, rfl⟩

/-! ## §5. A constant in front of a group. -/

/-- **The count of a group is a constant by itself**, and the letter is the
first character behind it. -/
theorem findsConstant_of_inFront {source count sides rest : List Char} {c n : Nat} {letter : Char}
    (h : DiceInFront source count c letter sides n rest)
    (hdigit : ∃ digit ∈ source.head?, digit.isDigit = true) :
    FindsConstant source c (letter :: (sides ++ rest)) := by
  refine findsConstant_iff.2 ⟨count, h.split, h.longest, ?_⟩
  cases h.count with
  | written hspelled =>
      exact { hspelled with within := Nat.le_trans hspelled.within (by decide) }
  | omitted =>
      -- Without a count the text begins with the letter.
      obtain ⟨digit, hmem, hd⟩ := hdigit
      rw [h.split] at hmem
      cases hmem
      rcases h.letter with rfl | rfl
      · exact absurd hd (by decide)
      · exact absurd hd (by decide)

/-- **THE READERS OF TERMS TAKE THE LONGEST RUNS, EXACTLY.**  A constant is
found where the longest run of digits spells a number; a group where the longest
run of digits is a count, or empty, and a letter and a number of sides follow
it.  Where a group is found in front of a text that begins with a digit, a
constant is found too, the count of the group with the letter behind it; so the
order in which the two are tried decides the token. -/
theorem reads_longest_runs (source : List Char) :
    (∀ v rest, FindsConstant source v rest ↔
      ∃ digits, NumberInFront maxNumber source digits v rest) ∧
    (∀ c n rest, FindsDice source c n rest ↔
      ∃ count letter sides, DiceInFront source count c letter sides n rest) ∧
    ∀ m, dice? source = some m → (∃ digit ∈ source.head?, digit.isDigit = true) →
      ∃ count c letter sides n, DiceInFront source count c letter sides n m.rest ∧
        m.IsDice c n ∧
        ∃ k, constant? source = some k ∧ k.IsConstant c ∧
          k.rest = letter :: (sides ++ m.rest) ∧
          (Pattern.either (.leaf .dice) (.leaf .constant)).read? source = some m ∧
          (Pattern.either (.leaf .constant) (.leaf .dice)).read? source = some k ∧
          m.token ≠ k.token := by
  refine ⟨fun _ _ => findsConstant_iff, fun _ _ _ => findsDice_iff, fun m hm hdigit => ?_⟩
  obtain ⟨count, c, letter, sides, n, hdice, -, htoken⟩ := dice?_eq_some_iff_inFront.1 hm
  have hgroup : m.IsDice c n := isDice_of_inFront hdice htoken
  obtain ⟨k, hk, hvalue, hrest⟩ := findsConstant_of_inFront hdice hdigit
  -- Both readers find something, so whichever is asked first decides.
  refine ⟨count, c, letter, sides, n, hdice, hgroup, k, hk, hvalue, hrest, ?_, ?_,
    hgroup.token_ne hvalue⟩
  · rw [Pattern.read?_either, Option.or_eq_some_iff]
    exact .inl hm
  · rw [Pattern.read?_either, Option.or_eq_some_iff]
    exact .inl hk

example :
    dice? "12d%x".toList
        = some ⟨"12d%".toList, some (.term (.dice ⟨12, 100, .positive⟩)), ['x']⟩ ∧
      constant? "12d%x".toList
        = some ⟨"12".toList, some (.term (.constant ⟨12⟩)), "d%x".toList⟩ := by
  decide

end Reader

end TabletopDice
