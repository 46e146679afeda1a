/-
  TabletopDice.Proofs.Scan.Foreign
  ──────────────────────────────────────
  **THE FIRST FOREIGN CHARACTER STOPS THE PARSE, and nothing behind it matters.**

  A character that no notation is written with is a barrier: it neither
  completes nor breaks off anything in front of it, however the text in front
  ends.  And no scan has ever read one, in whatever slot it comes to it.  So
  the text in front is read as if it stood alone, and the scan stops where it
  would have stopped in that text, at the foreign character at the latest.

    • `Scan.rest_run_foreign` — a scan that comes to a foreign character
      leaves it and all that follows,
    • `Scan.rest_ofText_foreign` — what a scan leaves of the front alone, it
      leaves in front of a foreign character,
    • `Expression.parse_foreign` — the error, for every front and every back.
-/
import TabletopDice.Proofs.Scan.Stop

namespace TabletopDice

open Grammar

/-! ## §1. Coming to a foreign character. -/

/-- **A foreign character is a barrier.** -/
theorem Barrier.foreign {c : Char} (hc : writable c = false) (back : List Char) :
    Barrier (c :: back) := by
  have hterm : Reader.inTerm c = false := by
    cases h : Reader.inTerm c with
    | false => rfl
    | true =>
        rw [writable_of_inTerm h] at hc
        exact hc
  have hspace : c ≠ ' ' := by
    intro h
    rw [h] at hc
    exact absurd hc (by decide)
  exact Barrier.cons hterm hspace back

namespace Scan

/-- **No scan reads a foreign character**, in whatever slot it comes to it:
what a scan has read is written with the characters of the notation. -/
theorem rest_run_foreign {c : Char} (hc : writable c = false) (slot : Slot) (back : List Char) :
    (run slot (c :: back)).rest = c :: back := by
  have hsplit := front_append_rest slot (c :: back)
  have hwritable := writable_of_mem_front slot (c :: back)
  -- What was read and what is left make up the source; nothing was read of it.
  cases hfront : (run slot (c :: back)).front with
  | nil =>
      rw [hfront] at hsplit
      exact hsplit
  | cons d front =>
      -- The first character that was read would be the foreign one.
      rw [hfront] at hsplit hwritable
      have hd : d = c := (List.cons.inj hsplit).1
      have hwritten := hwritable d List.mem_cons_self
      rw [hd, hc] at hwritten
      cases hwritten

/-- **What a scan leaves of the front alone, it leaves of the whole**, the
foreign character and what follows it behind that. -/
theorem rest_ofText_foreign {c : Char} (hc : writable c = false) (front back : List Char) :
    (ofText (front ++ c :: back)).rest = (ofText front).rest ++ c :: back := by
  have hrun : ofText (front ++ c :: back)
      = (ofText front).followedBy .leadingSpace (c :: back) :=
    run_append (Barrier.foreign hc back) .leadingSpace front
  rw [hrun]
  -- Used up, the scan comes to the foreign character; stuck, it never does.
  by_cases hrest : (ofText front).rest = []
  · rw [followedBy_of_used hrest, hrest]
    exact rest_run_foreign hc _ back
  · rw [followedBy_of_stuck hrest]

end Scan

/-! ## §2. How far a text is read. -/

namespace Expression

/-- **How many bytes of a text are read**: those up to the place of an error
that has one, and all of them otherwise. -/
def bytesRead (source : String) : Nat :=
  match parse source with
  | .error (.unreadable position _) => position
  | _ => source.utf8ByteSize

/-- What is left of a text where reading it comes to an end. -/
def unread (source : String) : List Char := Utf8.drop (bytesRead source) source.toList

/-- As many bytes as the scan came. -/
theorem bytesRead_eq (source : String) :
    bytesRead source = Utf8.size (Scan.ofText source.toList).front := by
  have hsize := Scan.size_front_add_size_rest source.toList
  unfold bytesRead
  -- A text that is used up has no error with a place; a stuck scan has one, and
  -- counts the bytes in front of its rest.
  by_cases hrest : (Scan.ofText source.toList).rest = []
  · have hparse : parse source = ofTokens (Scan.ofText source.toList).tokens :=
      ofChars_of_used hrest
    rw [hrest, Utf8.size_nil, Nat.add_zero] at hsize
    rw [hsize, Utf8.size_toList, hparse]
    split
    · next h => exact absurd h (ofTokens_ne_unreadable _ _ _)
    · rfl
  · have hparse : parse source
        = .error (.unreadableAt source.toList (Scan.ofText source.toList).rest) :=
      ofChars_of_stuck hrest
    rw [hparse]
    show Utf8.size source.toList - Utf8.size (Scan.ofText source.toList).rest = _
    omega

theorem unread_eq (source : String) : unread source = (Scan.ofText source.toList).rest := by
  have hsplit : (Scan.ofText source.toList).front ++ (Scan.ofText source.toList).rest
      = source.toList := Scan.front_append_rest .leadingSpace source.toList
  have hdrop := Utf8.drop_size_append (Scan.ofText source.toList).front
    (Scan.ofText source.toList).rest
  rw [hsplit] at hdrop
  unfold unread
  rw [bytesRead_eq]
  exact hdrop

/-! ## §3. The error. -/

/-- **THE FIRST FOREIGN CHARACTER STOPS THE PARSE.**  Whatever stands in front
of a character that no notation is written with, and whatever behind it, the
text is refused as far as its front can be read: at the place of the error of
the front, if that has one, and else at the foreign character.  The place
depends neither on the foreign character nor on what follows. -/
theorem parse_foreign {c : Char} (hc : writable c = false) (front back : String) :
    parse (front ++ String.singleton c ++ back)
      = .error (.unreadable (bytesRead front)
          (String.ofList ((unread front ++ c :: back.toList).take 10))) := by
  have hsource : (front ++ String.singleton c ++ back).toList
      = front.toList ++ c :: back.toList := by simp
  have hrest := Scan.rest_ofText_foreign hc front.toList back.toList
  have hstuck : (Scan.ofText (front.toList ++ c :: back.toList)).rest ≠ [] := by
    rw [hrest]
    exact List.append_ne_nil_of_right_ne_nil _ (List.cons_ne_nil _ _)
  -- The foreign character and what follows are left in full, so they cancel out.
  have hposition : Utf8.size (front.toList ++ c :: back.toList)
      - Utf8.size ((Scan.ofText front.toList).rest ++ c :: back.toList) = bytesRead front := by
    rw [Utf8.size_append, Utf8.size_append, bytesRead_eq, ← Scan.size_front_add_size_rest]
    omega
  unfold parse
  rw [hsource, ofChars_of_stuck hstuck, hrest, ParseError.unreadableAt, hposition, unread_eq]
  rfl

/-- A tab where a term is looked for, and an Arabic digit behind the letter of
a group that was never read as one. -/
theorem parse_foreign_tab_and_digit :
    writable '\t' = false ∧ writable '٣' = false ∧
      parse ("2d6 + " ++ String.singleton '\t' ++ "3")
        = .error (.unreadable 6 (String.ofList ['\t', '3'])) ∧
      parse ("2d6 + 5d" ++ String.singleton '٣' ++ " + 1")
        = .error (.unreadable 7 (String.ofList ['d', '٣', ' ', '+', ' ', '1'])) := by
  have htab : writable '\t' = false := by decide
  have hdigit : writable '٣' = false := by decide
  have htrailing : bytesRead "2d6 + " = 6 := by decide +kernel
  have hstuck : bytesRead "2d6 + 5d" = 7 := by decide +kernel
  refine ⟨htab, hdigit, ?_, ?_⟩
  · have h := parse_foreign htab "2d6 + " "3"
    rw [unread, htrailing] at h
    exact h
  · have h := parse_foreign hdigit "2d6 + 5d" " + 1"
    rw [unread, hstuck] at h
    exact h

end Expression

end TabletopDice
