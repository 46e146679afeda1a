/-
  TabletopDice.Text.Quoted
  ──────────────────────────────────────
  **TEXT SHOWN IN DOUBLE QUOTES, so that a reader of the journal sees every
  character of it.**

  A quote and a backslash get a backslash in front; tab, line feed, carriage
  return and NUL have letters; every other character that cannot stand for
  itself is written by its number in hexadecimal.
-/
import TabletopDice.Text.Printable

namespace TabletopDice.Quoted

/-- How one character is written between the quotes. -/
def escape (c : Char) : List Char :=
  match c with
  | '"' => ['\\', '"']
  | '\\' => ['\\', '\\']
  | '\t' => ['\\', 't']
  | '\n' => ['\\', 'n']
  | '\r' => ['\\', 'r']
  | '\x00' => ['\\', '0']
  | c =>
      if standsForItself c then [c]
      else ['\\', 'u', '\x7b'] ++ Nat.toDigits 16 c.toNat ++ ['\x7d']

/-- The text in double quotes, each character escaped where it has to be. -/
def quote (text : List Char) : List Char :=
  '"' :: (text.flatMap escape ++ ['"'])

/-- The digits of a number in hexadecimal stand for themselves. -/
theorem all_standsForItself_toDigits (n : Nat) :
    (Nat.toDigits 16 n).all standsForItself = true := by
  have hdigit : ∀ d < 16, standsForItself (Nat.digitChar d) = true := by decide
  -- The last digit stands apart, and the others write a smaller number.
  induction n using Nat.strongRecOn with
  | ind n ih =>
      rcases Nat.lt_or_ge n 16 with hlt | hge
      · rw [Nat.toDigits_of_lt_base hlt, List.all_cons, hdigit n hlt]
        rfl
      · have hfront := ih (n / 16) (Nat.div_lt_self (by omega) (by decide))
        have hlast := hdigit (n % 16) (Nat.mod_lt n (by decide))
        rw [Nat.toDigits_of_base_le (by decide) hge, List.all_append, hfront, List.all_cons, hlast]
        rfl

/-- However one character is written, what is written stands for itself. -/
theorem all_standsForItself_escape (c : Char) : (escape c).all standsForItself = true := by
  unfold escape
  split
  -- The first six are fixed texts; the last is a character without a letter of its own.
  case h_7 =>
    split
    · next hself => rw [List.all_cons, hself, List.all_nil, Bool.and_true]
    · rw [List.all_append, List.all_append, all_standsForItself_toDigits]
      decide
  all_goals decide

/-- **Whatever a text holds, between quotes every character stands for
itself.** -/
theorem all_standsForItself_quote (text : List Char) :
    (quote text).all standsForItself = true := by
  have hmark : standsForItself '"' = true := by decide
  unfold quote
  rw [List.all_cons, List.all_append, List.all_flatMap, List.all_cons, hmark, List.all_nil]
  simp only [all_standsForItself_escape, List.all_eq_true, implies_true, Bool.and_self,
    Bool.true_and, Bool.and_true]

example : quote "2d6\t\"".toList = "\"2d6\\t\\\"\"".toList := by decide
example : quote ['\x1b', 'e', '\u0301', '\u200b']
    = "\"\\u\x7b1b\x7de\\u\x7b301\x7d\\u\x7b200b\x7d\"".toList := by decide +kernel

end TabletopDice.Quoted
