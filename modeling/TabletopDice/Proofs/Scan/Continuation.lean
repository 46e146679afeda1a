/-
  TabletopDice.Proofs.Scan.Continuation
  ──────────────────────────────────────
  **MORE TEXT BEHIND A TEXT: when does a scan not notice?**

  Readers look ahead: `5` is a constant, `5d6` is not, and nothing but the
  character behind the `5` tells them apart.  `Slot.continues` names the
  characters by which a piece of a slot may go on; a text that begins with
  none of them is `Clear` of the slot, and then

    • `Slot.read?_append` — a slot finds in `front ++ back` what it finds in
      `front`, with `back` behind it,
    • `Scan.run_append` — a scan of `front ++ back` is the scan of `front`,
      continued over `back` in the slot where `front` was used up.

  A continued scan is thus a fresh scan begun in another slot, and this is
  how statements about a text pass to a text that contains it.
-/
import TabletopDice.Scan

namespace TabletopDice

/-! ## §1. Runs of characters in front of a clear text. -/

/-- The text begins with no character of the class. -/
def Clear (p : Char → Bool) (text : List Char) : Prop :=
  ∀ c ∈ text.head?, p c = false

namespace Clear

theorem nil (p : Char → Bool) : Clear p [] := by
  intro c hc
  cases hc

theorem cons_iff {p : Char → Bool} {c : Char} {text : List Char} :
    Clear p (c :: text) ↔ p c = false := by
  constructor
  · intro h
    exact h c rfl
  · intro h c' hc'
    cases hc'
    exact h

/-- What is clear of a class is clear of every smaller one. -/
theorem mono {p q : Char → Bool} {text : List Char} (h : Clear p text)
    (hpq : ∀ c, q c = true → p c = true) : Clear q text := by
  intro c hc
  cases hq : q c with
  | false => rfl
  | true =>
      have hp := h c hc
      rw [hpq c hq] at hp
      cases hp

/-- No run of the class begins in front of a clear text. -/
theorem takeWhile_eq_nil {p : Char → Bool} {text : List Char} (h : Clear p text) :
    text.takeWhile p = [] := by
  cases text with
  | nil => rfl
  | cons c text => rw [List.takeWhile_cons, cons_iff.1 h]; rfl

/-- So there is nothing to drop either. -/
theorem dropWhile_eq_self {p : Char → Bool} {text : List Char} (h : Clear p text) :
    text.dropWhile p = text := by
  cases text with
  | nil => rfl
  | cons c text => rw [List.dropWhile_cons, cons_iff.1 h]; rfl

/-- **A run of the class ends where the clear text begins, at the latest.** -/
theorem takeWhile_append {p : Char → Bool} {back : List Char} (h : Clear p back)
    (front : List Char) : (front ++ back).takeWhile p = front.takeWhile p := by
  -- Along `front`: a run that ends inside it never comes to `back`.
  induction front with
  | nil => exact h.takeWhile_eq_nil
  | cons c front ih =>
      rw [List.cons_append, List.takeWhile_cons, List.takeWhile_cons, ih]

/-- Behind the run stands what stood there before, and then the clear text. -/
theorem dropWhile_append {p : Char → Bool} {back : List Char} (h : Clear p back)
    (front : List Char) : (front ++ back).dropWhile p = front.dropWhile p ++ back := by
  induction front with
  | nil => exact h.dropWhile_eq_self
  | cons c front ih =>
      rw [List.cons_append, List.dropWhile_cons, List.dropWhile_cons, ih]
      split
      · rfl
      · rfl

end Clear

/-! ## §2. Readers in front of a clear text. -/

/-- A numeral with more text behind its rest. -/
def Numeral.followedBy (n : Numeral) (back : List Char) : Numeral :=
  { n with rest := n.rest ++ back }

/-- A match with more text behind its rest. -/
def Match.followedBy (m : Match) (back : List Char) : Match :=
  { m with rest := m.rest ++ back }

/-- No digit behind the text: it is read as the same number. -/
theorem Numeral.read?_append_of_clear (limit : Nat) {front back : List Char}
    (h : Clear Char.isDigit back) :
    Numeral.read? limit (front ++ back)
      = (Numeral.read? limit front).map (·.followedBy back) := by
  unfold Numeral.read?
  rw [h.takeWhile_append, h.dropWhile_append]
  -- The run of digits is the same, so all three cases are.
  split
  · rfl
  · rfl
  · rw [Option.map_map]
    rfl

namespace Reader

/-- The characters that may stand in a term. -/
def inTerm (c : Char) : Bool := c.isDigit || c == 'd' || c == 'D' || c == '%'

theorem inTerm_of_isDigit {c : Char} (h : c.isDigit = true) : inTerm c = true := by
  unfold inTerm
  rw [h]
  rfl

/-- What cannot go on a term cannot go on a number. -/
theorem clear_isDigit {back : List Char} (h : Clear inTerm back) : Clear Char.isDigit back :=
  h.mono fun _ hc => inTerm_of_isDigit hc

/-- The count is the same with a clear text behind it. -/
theorem count?_append_of_clear {front back : List Char} (h : Clear Char.isDigit back) :
    count? (front ++ back) = (count? front).map (·.followedBy back) := by
  unfold count?
  rw [h.takeWhile_append]
  split
  · rfl
  · exact Numeral.read?_append_of_clear _ h

/-- So are the sides. -/
theorem sides?_append_of_clear {front back : List Char} (h : Clear inTerm back) :
    sides? (front ++ back) = (sides? front).map (·.followedBy back) := by
  have hread : Numeral.read? maxNumber (front ++ back)
      = (Numeral.read? maxNumber front).map (·.followedBy back) :=
    Numeral.read?_append_of_clear maxNumber (clear_isDigit h)
  cases front with
  | nil =>
      -- Nothing stands in front, so `back` itself must not be taken for sides.
      have hhead : back.head? ≠ some '%' := by
        intro hc
        exact absurd (h '%' hc) (by decide)
      rw [List.nil_append, sides?_of_head_ne hhead, ← List.nil_append back, hread]
      rfl
  | cons c front =>
      -- A percent sign is taken by itself, whatever follows; else digits are read.
      by_cases hc : c = '%'
      · subst hc
        rfl
      · have hhead : some c ≠ some '%' := fun heq => hc (Option.some.inj heq)
        have hfront : sides? (c :: front) = Numeral.read? maxNumber (c :: front) :=
          sides?_of_head_ne hhead
        have hboth : sides? (c :: front ++ back) = Numeral.read? maxNumber (c :: front ++ back) :=
          sides?_of_head_ne hhead
        rw [hfront, hboth, hread]

/-- Behind a whole count, a clear text is no letter; behind a letter, the sides
are read from what follows it. -/
theorem diceAfter?_followedBy (count : Numeral) {back : List Char} (h : Clear inTerm back) :
    diceAfter? (count.followedBy back) = (diceAfter? count).map (·.followedBy back) := by
  obtain ⟨text, value, rest⟩ := count
  cases rest with
  | nil =>
      cases back with
      | nil => rfl
      | cons c back =>
          -- The count ends with the text, and the letter must not be found in `back`.
          have hc : ¬(c = 'd' ∨ c = 'D') := by
            rintro (rfl | rfl)
            · exact absurd (Clear.cons_iff.1 h) (by decide)
            · exact absurd (Clear.cons_iff.1 h) (by decide)
          exact if_neg hc
  | cons letter afterLetter =>
      show (if letter = 'd' ∨ letter = 'D' then _ else none)
        = Option.map _ (if letter = 'd' ∨ letter = 'D' then _ else none)
      by_cases hl : letter = 'd' ∨ letter = 'D'
      · rw [if_pos hl, if_pos hl]
        show Option.map _ (sides? (afterLetter ++ back)) = _
        rw [sides?_append_of_clear h, Option.map_map, Option.map_map]
        rfl
      · rw [if_neg hl, if_neg hl]
        rfl

/-- A group of dice is the same with a clear text behind it. -/
theorem dice?_append_of_clear {front back : List Char} (h : Clear inTerm back) :
    dice? (front ++ back) = (dice? front).map (·.followedBy back) := by
  unfold dice?
  rw [count?_append_of_clear (clear_isDigit h)]
  cases count? front with
  | none => rfl
  | some count => exact diceAfter?_followedBy count h

/-- So is a constant. -/
theorem constant?_append_of_clear {front back : List Char} (h : Clear inTerm back) :
    constant? (front ++ back) = (constant? front).map (·.followedBy back) := by
  unfold constant?
  rw [Numeral.read?_append_of_clear _ (clear_isDigit h), Option.map_map, Option.map_map]
  rfl

/-- So is a run of spaces, if no space follows. -/
theorem space?_append_of_clear {front back : List Char} (h : Clear (· = ' ') back) :
    space? (front ++ back) = (space? front).map (·.followedBy back) := by
  unfold space?
  rw [h.takeWhile_append, h.dropWhile_append]
  rfl

/-- An operator is one character, so what stands behind it never matters. -/
theorem operator?_append_of_ne_nil {front back : List Char} (h : front ≠ []) :
    operator? (front ++ back) = (operator? front).map (·.followedBy back) := by
  cases front with
  | nil => exact absurd rfl h
  | cons c front =>
      unfold operator?
      split
      · next heq => cases heq; rfl
      · next heq => cases heq; rfl
      -- The first character is no sign, in `front` as in both together.
      · next hadd hsub =>
          split
          · next heq => cases heq; exact absurd rfl (hadd _)
          · next heq => cases heq; exact absurd rfl (hsub _)
          · rfl

end Reader

/-! ## §3. Slots in front of a clear text. -/

namespace Slot

/-- The characters by which a piece of a slot may go on. -/
def continues : Slot → Char → Bool
  | .leadingSpace => (· = ' ')
  | .term => Reader.inTerm
  | .trailingSpace => (· = ' ')
  | .operator => fun _ => false

/-- **What a slot finds does not hang on a clear text behind it.** -/
theorem read?_append (slot : Slot) {front back : List Char} (hf : front ≠ [])
    (hb : Clear slot.continues back) :
    slot.pattern.read? (front ++ back)
      = (slot.pattern.read? front).map (·.followedBy back) := by
  cases slot with
  | leadingSpace => exact Reader.space?_append_of_clear hb
  | term =>
      -- Both readers answer alike, so the choice between them falls alike.
      unfold pattern
      rw [Pattern.read?_either, Pattern.read?_either]
      show (Reader.dice? (front ++ back)).or (Reader.constant? (front ++ back))
        = Option.map _ ((Reader.dice? front).or (Reader.constant? front))
      rw [Reader.dice?_append_of_clear hb, Reader.constant?_append_of_clear hb, Option.map_or]
  | trailingSpace => exact Reader.space?_append_of_clear hb
  | operator => exact Reader.operator?_append_of_ne_nil hf

/-- The slot that is reached after a number of steps. -/
def after : Slot → Nat → Slot
  | slot, 0 => slot
  | slot, steps + 1 => slot.next.after steps

end Slot

/-! ## §4. Scans in front of a clear text. -/

/-- A text that is clear of every slot: no piece goes on in it. -/
def Barrier (back : List Char) : Prop := ∀ slot : Slot, Clear slot.continues back

namespace Barrier

/-- A character that no term and no run of spaces holds is a barrier. -/
theorem cons {c : Char} (hterm : Reader.inTerm c = false) (hspace : c ≠ ' ')
    (text : List Char) : Barrier (c :: text) := by
  intro slot
  rw [Clear.cons_iff]
  cases slot with
  | leadingSpace => exact decide_eq_false hspace
  | term => exact hterm
  | trailingSpace => exact decide_eq_false hspace
  | operator => rfl

end Barrier

namespace Scan

/-- A scan with more text behind its source: it goes on if its source was used
up, and has the text behind its rest if it got stuck. -/
def followedBy (slot : Slot) (s : Scan) (back : List Char) : Scan :=
  if s.rest = [] then
    let next := run (slot.after s.steps.length) back
    ⟨s.steps ++ next.steps, next.rest⟩
  else ⟨s.steps, s.rest ++ back⟩

/-- A scan that used its text up goes on in the slot it has reached. -/
theorem followedBy_of_used {s : Scan} (h : s.rest = []) (slot : Slot) (back : List Char) :
    s.followedBy slot back
      = ⟨s.steps ++ (run (slot.after s.steps.length) back).steps,
          (run (slot.after s.steps.length) back).rest⟩ := if_pos h

/-- A scan that got stuck stays stuck. -/
theorem followedBy_of_stuck {s : Scan} (h : s.rest ≠ []) (slot : Slot) (back : List Char) :
    s.followedBy slot back = ⟨s.steps, s.rest ++ back⟩ := if_neg h

/-- A step more in front of a scan is a step more in front of what follows. -/
theorem followedBy_cons (slot : Slot) (step : ScanStep) (s : Scan) (back : List Char) :
    Scan.followedBy slot ⟨step :: s.steps, s.rest⟩ back
      = ⟨step :: (s.followedBy slot.next back).steps, (s.followedBy slot.next back).rest⟩ := by
  -- The step does not touch the rest, so both sides fall into the same case.
  by_cases h : s.rest = []
  · have hmore : (Scan.mk (step :: s.steps) s.rest).rest = [] := h
    rw [followedBy_of_used h, followedBy_of_used hmore]
    rfl
  · have hmore : (Scan.mk (step :: s.steps) s.rest).rest ≠ [] := h
    rw [followedBy_of_stuck h, followedBy_of_stuck hmore]

/-- **A scan goes over a barrier as over the end of a text.** -/
theorem run_append {back : List Char} (hb : Barrier back) (slot : Slot) (front : List Char) :
    run slot (front ++ back) = (run slot front).followedBy slot back := by
  -- Round by round over `front`: each round finds the same piece in both.
  induction slot, front using run_induct with
  | usedUp slot =>
      -- From here on the scan of the whole is a scan of `back`.
      rw [run_nil, followedBy_of_used rfl]
      rfl
  | stuck slot front hs h =>
      -- What stops the one scan stops the other, at the same place.
      have hboth : slot.pattern.read? (front ++ back) = none := by
        rw [slot.read?_append hs (hb slot), h]
        rfl
      rw [run_of_none h, run_of_none hboth, followedBy_of_stuck hs]
  | round slot front m hs h ih =>
      have hne : front ++ back ≠ [] := List.append_ne_nil_of_left_ne_nil hs back
      -- The piece is the same, and the induction hypothesis scans what is left of `front`.
      have hboth : slot.pattern.read? (front ++ back) = some (m.followedBy back) := by
        rw [slot.read?_append hs (hb slot), h]
        rfl
      rw [run_of_some hs h, run_of_some hne hboth, followedBy_cons, ← ih]
      rfl

end Scan

end TabletopDice
