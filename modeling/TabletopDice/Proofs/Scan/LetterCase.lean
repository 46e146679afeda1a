/-
  TabletopDice.Proofs.Scan.LetterCase
  ──────────────────────────────────────
  **THE CASE OF THE LETTER NEVER MATTERS**, in a text that is accepted or in
  one that is refused.

  Two texts that differ in the case of some letters have the same small form,
  so neither is compared with the other: a scan of the small form is the small
  form of the scan (`Scan.run_small`), whatever slot it comes to and
  wherever it fails.  Both scans thus read the same tokens and stop at the same
  place, and the excerpt there is cut from a text with the same letters
  switched.

    • `Leaf.read?_small`, `Pattern.read?_small` — a reader on the small form,
    • `Scan.run_small` — the scan of it,
    • `Scan.rest_ofText_switched` — what a scan leaves of the switched text,
    • `Expression.parse_switched` — the outcome.
-/
import TabletopDice.Proofs.Scan.Stop

namespace TabletopDice

open Grammar

/-! ## §1. The letter in either case. -/

namespace Letter

/-- The letter of a group as a small letter; any other character is left
alone. -/
def small (c : Char) : Char := if c = 'D' then 'd' else c

/-- The letter in its other case; any other character is left alone. -/
def turned (c : Char) : Char := if c = 'd' then 'D' else if c = 'D' then 'd' else c

/-- A text with the letters at the chosen places in their other case. -/
def switched (chosen : Nat → Bool) (text : List Char) : List Char :=
  text.mapIdx fun place c => if chosen place then turned c else c

theorem small_of_ne {c : Char} (h : c ≠ 'D') : small c = c := if_neg h

/-- Turning a letter does not show in its small form. -/
theorem small_turned (c : Char) : small (turned c) = small c := by
  by_cases hd : c = 'd'
  · rw [hd]
    decide
  · by_cases hD : c = 'D'
    · rw [hD]
      decide
    · rw [turned, if_neg hd, if_neg hD]

theorem small_of_isDigit {c : Char} (h : c.isDigit = true) : small c = c := by
  apply small_of_ne
  intro hD
  rw [hD] at h
  exact absurd h (by decide)

theorem isDigit_small (c : Char) : (small c).isDigit = c.isDigit := by
  by_cases hD : c = 'D'
  · rw [hD]
    decide
  · rw [small_of_ne hD]

/-- **Small letters are taken for no other character.** -/
theorem small_eq_iff {c k : Char} (hd : k ≠ 'd') (hD : k ≠ 'D') : small c = k ↔ c = k := by
  by_cases hc : c = 'D'
  · rw [hc]
    exact ⟨fun h => absurd h.symm hd, fun h => absurd h.symm hD⟩
  · rw [small_of_ne hc]

theorem isLetter_small (c : Char) : small c = 'd' ∨ small c = 'D' ↔ c = 'd' ∨ c = 'D' := by
  by_cases hD : c = 'D'
  · rw [hD]
    decide
  · rw [small_of_ne hD]

/-- Both cases take one byte, so places are the same in the small form. -/
theorem utf8Size_small (c : Char) : (small c).utf8Size = c.utf8Size := by
  by_cases hD : c = 'D'
  · rw [hD]
    decide
  · rw [small_of_ne hD]

theorem size_map_small (text : List Char) : Utf8.size (text.map small) = Utf8.size text := by
  -- Character by character the sizes agree, so the sums do.
  induction text with
  | nil => rfl
  | cons c text ih => rw [List.map_cons, Utf8.size_cons, Utf8.size_cons, utf8Size_small, ih]

/-- Switching the case of letters does not show in the small form. -/
theorem map_small_switched (chosen : Nat → Bool) (text : List Char) :
    (switched chosen text).map small = text.map small := by
  -- Switching depends on the place, so the texts are compared place by place.
  apply List.ext_getElem?
  intro place
  unfold switched
  rw [List.getElem?_map, List.getElem?_mapIdx, Option.map_map, List.getElem?_map]
  refine congrArg (fun read => Option.map read text[place]?) (funext fun c => ?_)
  show small (if chosen place then turned c else c) = small c
  split
  · exact small_turned c
  · rfl

theorem length_switched (chosen : Nat → Bool) (text : List Char) :
    (switched chosen text).length = text.length := List.length_mapIdx

/-- Switching moves no place: both texts have the small form in common. -/
theorem size_switched (chosen : Nat → Bool) (text : List Char) :
    Utf8.size (switched chosen text) = Utf8.size text := by
  rw [← size_map_small, map_small_switched, size_map_small]

/-- Behind a front part the places count on. -/
theorem switched_append (chosen : Nat → Bool) (front back : List Char) :
    switched chosen (front ++ back)
      = switched chosen front ++ switched (fun place => chosen (place + front.length)) back :=
  List.mapIdx_append

/-- The excerpt of a switched text is the switched excerpt. -/
theorem take_switched (chosen : Nat → Bool) (text : List Char) (n : Nat) :
    (switched chosen text).take n = switched chosen (text.take n) := by
  apply List.ext_getElem?
  intro place
  unfold switched
  rw [List.getElem?_take, List.getElem?_mapIdx, List.getElem?_mapIdx, List.getElem?_take]
  split
  · rfl
  · rfl

end Letter

/-! ## §2. Readers on the small form. -/

/-- Digits have no case. -/
theorem Letter.map_small_takeWhile_isDigit (source : List Char) :
    (source.takeWhile Char.isDigit).map small = source.takeWhile Char.isDigit := by
  have hdigits : ∀ c ∈ source.takeWhile Char.isDigit, small c = id c := fun c hc =>
    small_of_isDigit (List.all_eq_true.1 List.all_takeWhile c hc)
  rw [List.map_congr_left hdigits, List.map_id]

/-- The small form begins with the same digits. -/
theorem Letter.takeWhile_isDigit_small (source : List Char) :
    (source.map small).takeWhile Char.isDigit = source.takeWhile Char.isDigit := by
  have hclass : Char.isDigit ∘ small = Char.isDigit := funext isDigit_small
  rw [List.takeWhile_map, hclass, map_small_takeWhile_isDigit]

/-- Behind the digits the small form goes on as the text does. -/
theorem Letter.dropWhile_isDigit_small (source : List Char) :
    (source.map small).dropWhile Char.isDigit = (source.dropWhile Char.isDigit).map small := by
  have hclass : Char.isDigit ∘ small = Char.isDigit := funext isDigit_small
  rw [List.dropWhile_map, hclass]

/-- A numeral in the small form.  The value is the same. -/
def Numeral.small (n : Numeral) : Numeral where
  text := n.text.map Letter.small
  value := n.value
  rest := n.rest.map Letter.small

/-- A match in the small form.  The token is the same. -/
def Match.small (m : Match) : Match where
  text := m.text.map Letter.small
  token := m.token
  rest := m.rest.map Letter.small

/-- A numeral has the same text and value in the small form; only what stands
behind it is made small. -/
theorem Numeral.read?_small (limit : Nat) (source : List Char) :
    Numeral.read? limit (source.map Letter.small)
      = (Numeral.read? limit source).map Numeral.small := by
  have hdigits := Letter.map_small_takeWhile_isDigit source
  unfold Numeral.read?
  rw [Letter.takeWhile_isDigit_small, Letter.dropWhile_isDigit_small]
  -- No digits, a leading zero, or a run to be valued: the same case on both sides.
  split
  · rfl
  · rfl
  · rw [Option.map_map]
    refine congrArg (fun build => Option.map build _) (funext fun value => ?_)
    show Numeral.mk _ value _ = Numeral.mk (List.map Letter.small _) value _
    rw [hdigits]

namespace Reader

theorem count?_small (source : List Char) :
    count? (source.map Letter.small) = (count? source).map Numeral.small := by
  unfold count?
  rw [Letter.takeWhile_isDigit_small]
  split
  · rfl
  · exact Numeral.read?_small _ source

/-- Sides are read alike: a percent sign is no letter, and digits have no case. -/
theorem sides?_small (source : List Char) :
    sides? (source.map Letter.small) = (sides? source).map Numeral.small := by
  cases source with
  | nil => rfl
  | cons c source =>
      -- Only the percent sign is looked at by itself; what is not one stays so when
      -- it is made small.
      by_cases hc : c = '%'
      · rw [hc]
        rfl
      · have hsmall : Letter.small c ≠ '%' := by
          rw [Ne, Letter.small_eq_iff (by decide) (by decide)]
          exact hc
        have hhead : ((c :: source).map Letter.small).head? ≠ some '%' := fun heq =>
          hsmall (Option.some.inj heq)
        have hhead' : (c :: source).head? ≠ some '%' := fun heq => hc (Option.some.inj heq)
        rw [sides?_of_head_ne hhead, sides?_of_head_ne hhead', Numeral.read?_small]

/-- **The letter is looked for in both cases.** -/
theorem diceAfter?_small (count : Numeral) :
    diceAfter? count.small = (diceAfter? count).map Match.small := by
  obtain ⟨text, value, rest⟩ := count
  cases rest with
  | nil => rfl
  | cons letter afterLetter =>
      have hletter := Letter.isLetter_small letter
      -- Both sides test the character behind the count, and agree on the answer.
      show (if Letter.small letter = 'd' ∨ Letter.small letter = 'D' then _ else none)
        = Option.map _ (if letter = 'd' ∨ letter = 'D' then _ else none)
      by_cases hl : letter = 'd' ∨ letter = 'D'
      · rw [if_pos (hletter.2 hl), if_pos hl]
        show Option.map _ (sides? (afterLetter.map Letter.small)) = _
        rw [sides?_small, Option.map_map, Option.map_map]
        refine congrArg (fun build => Option.map build _) (funext fun sides => ?_)
        simp [Match.small, Numeral.small]
      · rw [if_neg (mt hletter.1 hl), if_neg hl]
        rfl

theorem dice?_small (source : List Char) :
    dice? (source.map Letter.small) = (dice? source).map Match.small := by
  unfold dice?
  rw [count?_small]
  cases count? source with
  | none => rfl
  | some count => exact diceAfter?_small count

theorem constant?_small (source : List Char) :
    constant? (source.map Letter.small) = (constant? source).map Match.small := by
  unfold constant?
  rw [Numeral.read?_small, Option.map_map, Option.map_map]
  rfl

theorem space?_small (source : List Char) :
    space? (source.map Letter.small) = (space? source).map Match.small := by
  -- No letter is made into a space or out of one.
  have hclass : (fun c : Char => decide (c = ' ')) ∘ Letter.small = fun c => decide (c = ' ') := by
    funext c
    exact decide_eq_decide.2 (Letter.small_eq_iff (by decide) (by decide))
  unfold space?
  rw [List.takeWhile_map, List.dropWhile_map, hclass]
  rfl

theorem operator?_of_ne {c : Char} (hadd : c ≠ '+') (hsub : c ≠ '-') (source : List Char) :
    operator? (c :: source) = none := by
  unfold operator?
  split
  · next heq => exact absurd (List.cons.inj heq).1 hadd
  · next heq => exact absurd (List.cons.inj heq).1 hsub
  · rfl

theorem operator?_small (source : List Char) :
    operator? (source.map Letter.small) = (operator? source).map Match.small := by
  cases source with
  | nil => rfl
  | cons c source =>
      -- A sign stands for itself in the small form, and nothing else becomes one.
      by_cases hadd : c = '+'
      · rw [hadd]
        rfl
      · by_cases hsub : c = '-'
        · rw [hsub]
          rfl
        · have hadd' := mt (Letter.small_eq_iff (by decide) (by decide)).1 hadd
          have hsub' := mt (Letter.small_eq_iff (by decide) (by decide)).1 hsub
          rw [List.map_cons, operator?_of_ne hadd hsub, operator?_of_ne hadd' hsub']
          rfl

end Reader

/-- The four readers in one statement. -/
theorem Leaf.read?_small (l : Leaf) (source : List Char) :
    l.read? (source.map Letter.small) = (l.read? source).map Match.small := by
  cases l with
  | dice => exact Reader.dice?_small source
  | constant => exact Reader.constant?_small source
  | space => exact Reader.space?_small source
  | operator => exact Reader.operator?_small source

/-- **What a pattern finds in the small form is the small form of what it
finds**: every choice falls alike. -/
theorem Pattern.read?_small (p : Pattern) (source : List Char) :
    p.read? (source.map Letter.small) = (p.read? source).map Match.small := by
  -- The first pattern succeeds on the small form exactly when it does on the text.
  induction p with
  | leaf l => exact l.read?_small source
  | either first second ihf ihs =>
      rw [Pattern.read?_either, Pattern.read?_either, ihf, ihs, Option.map_or]

/-! ## §3. Scans of the small form. -/

namespace Scan

/-- **The scan of the small form** reads the same tokens and stops at the same
place, round by round. -/
theorem run_small (slot : Slot) (source : List Char) :
    (run slot (source.map Letter.small)).tokens = (run slot source).tokens ∧
      (run slot (source.map Letter.small)).rest = (run slot source).rest.map Letter.small := by
  induction slot, source using run_induct with
  -- An empty text is its own small form.
  | usedUp slot =>
      rw [List.map_nil, run_nil]
      exact ⟨rfl, rfl⟩
  | stuck slot source hs h =>
      have hsmall : slot.pattern.read? (source.map Letter.small) = none := by
        rw [Pattern.read?_small, h]
        rfl
      rw [run_of_none h, run_of_none hsmall]
      exact ⟨rfl, rfl⟩
  | round slot source m hs h ih =>
      have hne : source.map Letter.small ≠ [] := fun hnil => hs (List.map_eq_nil_iff.1 hnil)
      -- Both scans go on behind the match, where the induction hypothesis takes over.
      have hsmall : slot.pattern.read? (source.map Letter.small) = some m.small := by
        rw [Pattern.read?_small, h]
        rfl
      rw [tokens_run_of_some hs h, rest_run_of_some hs h, tokens_run_of_some hne hsmall,
        rest_run_of_some hne hsmall, ← ih.1, ← ih.2]
      exact ⟨rfl, rfl⟩

/-- Both texts have one small form, and each reads the tokens of that. -/
theorem tokens_ofText_switched (chosen : Nat → Bool) (source : List Char) :
    (ofText (Letter.switched chosen source)).tokens = (ofText source).tokens := by
  have hswitched := (run_small .leadingSpace (Letter.switched chosen source)).1
  rw [Letter.map_small_switched, (run_small .leadingSpace source).1] at hswitched
  exact hswitched.symm

/-- **What a scan leaves of the switched text** is what it leaves of the text,
with the same letters switched. -/
theorem rest_ofText_switched (chosen : Nat → Bool) (source : List Char) :
    (ofText (Letter.switched chosen source)).rest
      = Letter.switched (fun place => chosen (place + (ofText source).front.length))
          (ofText source).rest := by
  have hrest := (run_small .leadingSpace (Letter.switched chosen source)).2
  rw [Letter.map_small_switched, (run_small .leadingSpace source).2] at hrest
  -- The rests are equal up to case only, but that makes them equally long.
  have hlength := congrArg List.length hrest
  rw [List.length_map, List.length_map] at hlength
  -- Both texts are cut at the same place, so the rests correspond.
  have hsplit : (ofText source).front ++ (ofText source).rest = source :=
    front_append_rest .leadingSpace source
  have hsplit' : (ofText (Letter.switched chosen source)).front
      ++ (ofText (Letter.switched chosen source)).rest = Letter.switched chosen source :=
    front_append_rest .leadingSpace (Letter.switched chosen source)
  have hswitched := Letter.switched_append chosen (ofText source).front (ofText source).rest
  rw [hsplit] at hswitched
  refine (List.append_inj' (hsplit'.trans hswitched) ?_).2
  rw [Letter.length_switched]
  exact hlength.symm

end Scan

/-! ## §4. The outcome. -/

/-- An error as the switched text has it: at the same place, and the excerpt
there with the letters switched that are chosen in the text. -/
def ParseError.switched (chosen : Nat → Bool) : ParseError → ParseError
  | .unreadable position excerpt =>
      .unreadable position
        (String.ofList (Letter.switched (fun place => chosen (place + position)) excerpt.toList))
  | .trailingOperator => .trailingOperator
  | .empty => .empty

namespace Expression

/-- An error without a place does not change. -/
theorem mapError_ofTokens (chosen : Nat → Bool) (tokens : List Token) :
    (ofTokens tokens).mapError (ParseError.switched chosen) = ofTokens tokens := by
  unfold ofTokens
  split
  · rfl
  · rfl
  · rfl

/-- The place of an error counts the characters in front of it. -/
theorem size_sub_size_rest (source : List Char) :
    Utf8.size source - Utf8.size (Scan.ofText source).rest
      = (Scan.ofText source).front.length := by
  have hsize := Scan.size_front_add_size_rest source
  have hfront : Utf8.size (Scan.ofText source).front = (Scan.ofText source).front.length :=
    size_eq_length (Scan.writable_of_mem_front .leadingSpace source)
  omega

/-- The outcome for a list of characters: used up or stuck, the two scans agree. -/
theorem ofChars_switched (chosen : Nat → Bool) (source : List Char) :
    ofChars (Letter.switched chosen source)
      = (ofChars source).mapError (ParseError.switched chosen) := by
  have hrest := Scan.rest_ofText_switched chosen source
  by_cases hused : (Scan.ofText source).rest = []
  · rw [hused] at hrest
    rw [ofChars_of_used hused, ofChars_of_used hrest, Scan.tokens_ofText_switched,
      mapError_ofTokens]
  -- What is left of the switched text is as long, so it is not empty either.
  · have hstuck : (Scan.ofText (Letter.switched chosen source)).rest ≠ [] := by
      rw [hrest]
      intro hnil
      have hlength := congrArg List.length hnil
      rw [Letter.length_switched] at hlength
      exact hused (List.length_eq_zero_iff.1 hlength)
    -- Same sizes give the same position, and the excerpt is cut from the same
    -- place, which the places of its letters are counted from.
    have hexcerpt : ParseError.unreadableAt (Letter.switched chosen source)
          (Scan.ofText (Letter.switched chosen source)).rest
        = (ParseError.unreadableAt source (Scan.ofText source).rest).switched chosen := by
      unfold ParseError.unreadableAt
      rw [hrest, Letter.size_switched, Letter.size_switched, Letter.take_switched,
        ParseError.switched, String.toList_ofList, size_sub_size_rest]
    rw [ofChars_of_stuck hused, ofChars_of_stuck hstuck, hexcerpt]
    rfl

/-- **THE CASE OF THE LETTER NEVER MATTERS.**  Whatever the text, and whichever of
its letters are put into their other case: the outcome is the same, and an
error that has a place has the same one, with an excerpt in which just these
letters are switched. -/
theorem parse_switched (chosen : Nat → Bool) (source : String) :
    parse (String.ofList (Letter.switched chosen source.toList))
      = (parse source).mapError (ParseError.switched chosen) := by
  unfold parse
  rw [String.toList_ofList]
  exact ofChars_switched chosen source.toList

example :
    parse (String.ofList (Letter.switched (fun place => place == 7) "2d6 + 5d".toList))
      = .error (.unreadable 7 "D") := by cbv

end Expression

end TabletopDice
