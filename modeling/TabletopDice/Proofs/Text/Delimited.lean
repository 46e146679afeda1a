/-
  TabletopDice.Proofs.Text.Delimited
  ──────────────────────────────────────
  **WRITTEN VALUES THAT TELL WHERE THEY END.**

  The numbers `12` and `3`, written one right behind the other, are not told
  from `1` and `23`; with a comma between them they are.  A way of writing is
  `Delimited` by a class of characters when nothing is lost in front of a text
  that begins with none of them: equal texts come from equal values, and what
  stands behind the values is equal too.  This passes from parts to the whole:

    • `Delimited.after`, `Delimited.closed`, `Delimited.pair` — a fixed text in
      front, a bracket behind, one value behind another,
    • `Delimited.flatMap` — a list, a separator in front of each element,
    • `Decimal.delimited_natural`, `Decimal.delimited_signed` — numbers.
-/
import TabletopDice.Proofs.Grammar.RoundTrip

namespace TabletopDice

/-- **Equal texts, equal values**, in front of texts that are clear of the
class; and what stands behind the values is equal then. -/
def Delimited {α : Type} (p : Char → Bool) (write : α → List Char) : Prop :=
  ∀ ⦃a b : α⦄ ⦃x y : List Char⦄, Clear p x → Clear p y →
    write a ++ x = write b ++ y → a = b ∧ x = y

/-! ## §1. From parts to the whole. -/

namespace Delimited

variable {α β : Type} {p q : Char → Bool} {write : α → List Char} {write' : β → List Char}

/-- A delimited value is told by its text alone. -/
theorem injective (h : Delimited p write) : Function.Injective write := by
  intro a b heq
  -- The empty text is clear of every class.
  have happend : write a ++ [] = write b ++ [] := by rw [heq]
  exact (h (Clear.nil p) (Clear.nil p) happend).1

/-- A value that is told by another one, which is written, is told by the
text. -/
theorem comp {f : β → α} (h : Delimited p write) (hf : Function.Injective f) :
    Delimited p fun b => write (f b) := by
  intro a b x y hx hy heq
  obtain ⟨hab, hxy⟩ := h hx hy heq
  exact ⟨hf hab, hxy⟩

/-- A fixed text in front says nothing. -/
theorem after (h : Delimited p write) (front : List Char) :
    Delimited p fun a => front ++ write a := by
  intro a b x y hx hy heq
  simp only [List.append_assoc] at heq
  exact h hx hy (List.append_cancel_left heq)

/-- **A closing bracket ends the text**: anything may stand behind it. -/
theorem closed (h : Delimited p write) {bracket : Char} (hbracket : p bracket = false) :
    Delimited q fun a => write a ++ [bracket] := by
  intro a b x y _ _ heq
  simp only [List.append_assoc, List.singleton_append] at heq
  -- The bracket stands where the value has ended, so it ends it on both sides.
  have hclear : ∀ z, Clear p (bracket :: z) := fun z => Clear.cons_iff.2 hbracket
  obtain ⟨hab, hrest⟩ := h (hclear x) (hclear y) heq
  exact ⟨hab, (List.cons.inj hrest).2⟩

/-- **One value behind another**, with a separator between them that the first
one cannot go on with. -/
theorem pair (h : Delimited p write) (h' : Delimited q write') {separator : Char}
    (hs : p separator = false) :
    Delimited q fun ab : α × β => write ab.1 ++ separator :: write' ab.2 := by
  intro ab cd x y hx hy heq
  simp only [List.append_assoc, List.cons_append] at heq
  have hclear : ∀ z, Clear p (separator :: z) := fun z => Clear.cons_iff.2 hs
  obtain ⟨hfirst, hrest⟩ := h (hclear _) (hclear _) heq
  obtain ⟨hsecond, hxy⟩ := h' hx hy (List.cons.inj hrest).2
  exact ⟨Prod.ext hfirst hsecond, hxy⟩

/-- Elements behind their separators, and a text that is clear of both: nothing
in front of which an element could go on. -/
theorem clear_flatMap {separator : Char} (hs : p separator = false) (as : List α) {x : List Char}
    (hx : Clear (fun c => p c || c == separator) x) :
    Clear p (as.flatMap (fun a => separator :: write a) ++ x) := by
  cases as with
  | nil => exact hx.mono fun c hc => by simp [hc]
  | cons a as => exact Clear.cons_iff.2 hs

/-- **A list with a separator in front of each element** ends where no further
separator stands. -/
theorem flatMap (h : Delimited p write) {separator : Char} (hs : p separator = false) :
    Delimited (fun c => p c || c == separator)
      fun as : List α => as.flatMap fun a => separator :: write a := by
  -- No separator stands in front of what follows the list.
  have hend : ∀ {z more : List Char}, Clear (fun c => p c || c == separator) z →
      z ≠ separator :: more := by
    intro z more hz heq
    rw [heq, Clear.cons_iff] at hz
    simp at hz
  -- Along the first list, for every second one: a separator stands in front of the next
  -- element, and the end of the list is told by there being none.
  intro as
  induction as with
  | nil =>
      intro bs x y hx hy heq
      cases bs with
      | nil => exact ⟨rfl, heq⟩
      | cons b bs => exact absurd heq (hend hx)
  | cons a as ih =>
      intro bs x y hx hy heq
      cases bs with
      | nil => exact absurd heq.symm (hend hy)
      | cons b bs =>
          simp only [List.flatMap_cons, List.cons_append, List.append_assoc, List.cons.injEq,
            true_and] at heq
          obtain ⟨hab, hrest⟩ := h (clear_flatMap hs as hx) (clear_flatMap hs bs hy) heq
          obtain ⟨hlist, hxy⟩ := ih hx hy hrest
          exact ⟨by rw [hab, hlist], hxy⟩

end Delimited

/-! ## §2. Numbers. -/

namespace Decimal

/-- **A number ends where its run of digits does.** -/
theorem delimited_natural : Delimited Char.isDigit natural := by
  intro m n x y hx hy heq
  -- Both numbers are the run of digits in front of the same text.
  have hdigits : natural m = natural n := by
    have htake := congrArg (List.takeWhile Char.isDigit) heq
    rwa [hx.takeWhile_append, hy.takeWhile_append, takeWhile_natural, takeWhile_natural] at htake
  rw [hdigits] at heq
  refine ⟨?_, List.append_cancel_left heq⟩
  rw [← ofDigitChars_natural m, hdigits, ofDigitChars_natural]

/-- **The sign is told by the first character**, and the distance from zero by
the digits. -/
theorem delimited_signed : Delimited Char.isDigit signed := by
  have hdash : Char.isDigit '-' = false := by decide
  intro i j x y hx hy heq
  unfold signed at heq
  -- Where the signs differ, a dash would be a digit.
  by_cases hi : i < 0
  · by_cases hj : j < 0
    · rw [if_pos hi, if_pos hj] at heq
      obtain ⟨hnat, hxy⟩ := delimited_natural hx hy (List.cons.inj heq).2
      exact ⟨by omega, hxy⟩
    · rw [if_pos hi, if_neg hj] at heq
      exact absurd heq.symm (natural_append_ne_cons hdash _ _ _)
  · by_cases hj : j < 0
    · rw [if_neg hi, if_pos hj] at heq
      exact absurd heq (natural_append_ne_cons hdash _ _ _)
    · rw [if_neg hi, if_neg hj] at heq
      obtain ⟨hnat, hxy⟩ := delimited_natural hx hy heq
      exact ⟨by omega, hxy⟩

end Decimal

end TabletopDice
