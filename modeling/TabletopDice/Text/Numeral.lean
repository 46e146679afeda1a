/-
  TabletopDice.Text.Numeral
  ──────────────────────────────────────
  **NUMBERS AS TEXT: decimal digits, written and read.**

  A numeral of the dice notation is the longest run of digits in front of the
  text; it has no leading zero and its value is at most a given limit.  A run
  that breaks a rule is no numeral at all — a shorter run is never tried.

    • `valueUpTo_eq` — reading stops growing at a cap, yet decides every limit
      below it, so a run of any length is read in one pass,
    • `within?_eq_some_iff` — a run has the value `v` within the limit,
    • `read?_append` — reading splits the text and loses nothing.
-/

namespace TabletopDice

/-! ## §1. Writing. -/

namespace Decimal

/-- The decimal digits of a natural number, most significant first. -/
def natural (n : Nat) : List Char := Nat.toDigits 10 n

/-- The decimal text of an integer, with a minus sign below zero. -/
def signed (i : Int) : List Char :=
  if i < 0 then '-' :: natural i.natAbs else natural i.natAbs

end Decimal

/-! ## §2. The value of a run of digits. -/

namespace Digits

/-- One digit more: ten times the value so far plus the digit, held at `cap`. -/
def push (cap value : Nat) (digit : Char) : Nat :=
  min cap (10 * value + (digit.toNat - '0'.toNat))

/-- The value of a run of digits, **held at `cap` once it gets there**. -/
def valueUpTo (cap : Nat) (run : List Char) : Nat := run.foldl (push cap) 0

/-- The value of a run of digits if it is at most `limit`. -/
def within? (limit : Nat) (run : List Char) : Option Nat :=
  let value := valueUpTo (limit + 1) run
  if value ≤ limit then some value else none

/-- Reading from a held value holds the value that is read. -/
theorem foldl_push_eq (cap : Nat) (run : List Char) :
    ∀ v : Nat, run.foldl (push cap) (min cap v) = min cap (Nat.ofDigitChars 10 run v) := by
  -- A value at the cap only grows with more digits, so it can be held at any time.
  induction run with
  | nil => intro v; simp
  | cons c run ih =>
      intro v
      rw [List.foldl_cons, Nat.ofDigitChars_cons, ← ih]
      congr 1
      simp only [push]
      omega

/-- **The held value is the value, cut at the cap.** -/
theorem valueUpTo_eq (cap : Nat) (run : List Char) :
    valueUpTo cap run = min cap (Nat.ofDigitChars 10 run 0) := by
  have h := foldl_push_eq cap run 0
  rw [Nat.min_zero] at h
  exact h

theorem within?_eq_some_iff {limit v : Nat} {run : List Char} :
    within? limit run = some v ↔ Nat.ofDigitChars 10 run 0 = v ∧ v ≤ limit := by
  simp only [within?, valueUpTo_eq]
  split
  · rw [Option.some.injEq]
    omega
  · simp only [reduceCtorEq, false_iff]
    omega

end Digits

/-! ## §3. Numerals in front of a text. -/

/-- A numeral found in front of a text: its digits as written, their value, and
what follows them. -/
structure Numeral where
  text : List Char
  value : Nat
  rest : List Char
deriving DecidableEq

namespace Numeral

/-- Read the numeral in front of a text.  The whole run of digits is taken:
it must not be empty, must not start with zero, and must not exceed `limit`. -/
def read? (limit : Nat) (source : List Char) : Option Numeral :=
  match source.takeWhile Char.isDigit with
  | [] => none
  | '0' :: _ => none
  | digits => (Digits.within? limit digits).map fun value =>
      ⟨digits, value, source.dropWhile Char.isDigit⟩

/-- **A numeral is the longest run of digits**, of the value and within the
limit that were asked for. -/
theorem read?_eq_some_iff {limit : Nat} {source : List Char} {n : Numeral} :
    read? limit source = some n ↔
      n.text = source.takeWhile Char.isDigit ∧ n.rest = source.dropWhile Char.isDigit ∧
        n.text ≠ [] ∧ n.text.head? ≠ some '0' ∧
        Nat.ofDigitChars 10 n.text 0 = n.value ∧ n.value ≤ limit := by
  -- The ways to find nothing, and then the run of digits with its value.
  obtain ⟨text, value, rest⟩ := n
  simp only [read?]
  split
  · next h =>
      simp only [reduceCtorEq, false_iff]
      rintro ⟨hd, -, hne, -⟩
      exact hne (hd.trans h)
  · next h =>
      simp only [reduceCtorEq, false_iff]
      rintro ⟨hd, -, -, hz, -⟩
      exact hz (by rw [hd, h, List.head?_cons])
  · next h0 hz =>
      rw [Option.map_eq_some_iff]
      constructor
      · rintro ⟨v, hv, heq⟩
        rw [Digits.within?_eq_some_iff] at hv
        simp only [Numeral.mk.injEq] at heq
        obtain ⟨rfl, rfl, rfl⟩ := heq
        refine ⟨rfl, rfl, h0, ?_, hv⟩
        intro hhead
        cases hrun : source.takeWhile Char.isDigit with
        | nil => exact h0 hrun
        | cons c r =>
            rw [hrun] at hhead
            simp only [List.head?_cons, Option.some.injEq] at hhead
            subst hhead
            exact hz _ hrun
      · rintro ⟨rfl, rfl, -, -, hv⟩
        exact ⟨value, Digits.within?_eq_some_iff.2 hv, rfl⟩

/-- **Reading splits the text**: the digits and the rest are the whole of it. -/
theorem read?_append {limit : Nat} {source : List Char} {n : Numeral}
    (h : read? limit source = some n) : n.text ++ n.rest = source := by
  obtain ⟨hd, hr, -⟩ := read?_eq_some_iff.1 h
  rw [hd, hr, List.takeWhile_append_dropWhile]

theorem text_ne_nil {limit : Nat} {source : List Char} {n : Numeral}
    (h : read? limit source = some n) : n.text ≠ [] :=
  (read?_eq_some_iff.1 h).2.2.1

end Numeral

example : (Numeral.read? 10000 "10000d6".toList).map Numeral.value = some 10000 := by decide
example : Numeral.read? 10000 "10001d6".toList = none := by decide
example : Numeral.read? 10000 "06".toList = none := by decide

end TabletopDice
