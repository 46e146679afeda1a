/-
  TabletopDice.Text.Utf8
  ──────────────────────────────────────
  **POSITIONS IN BYTES: how many bytes of UTF-8 a text takes.**

  Positions in an error are byte offsets, while texts are lists of
  characters.  `size` counts the bytes, `drop` cuts a text at a byte offset,
  and `drop_size_append` says that the two fit together.
-/

namespace TabletopDice.Utf8

/-- The number of bytes of a text. -/
def size (text : List Char) : Nat :=
  text.foldl (fun bytes c => bytes + c.utf8Size) 0

/-- What is left of a text after its first `bytes` bytes.  An offset inside a
character takes that character away whole. -/
def drop : (bytes : Nat) → List Char → List Char
  | 0, text => text
  | _ + 1, [] => []
  -- A character is at least one byte, so the offset shrinks.
  | bytes + 1, c :: text => drop (bytes + 1 - c.utf8Size) text

/-- What was counted before is added to what is counted from here on. -/
theorem foldl_utf8Size (text : List Char) :
    ∀ bytes : Nat, text.foldl (fun n c => n + c.utf8Size) bytes = bytes + size text := by
  induction text with
  | nil => intro bytes; rfl
  | cons c text ih =>
      intro bytes
      show text.foldl _ (bytes + c.utf8Size)
        = bytes + text.foldl _ (0 + c.utf8Size)
      rw [ih, ih]
      omega

@[simp] theorem size_nil : size [] = 0 := rfl

@[simp] theorem size_cons (c : Char) (text : List Char) :
    size (c :: text) = c.utf8Size + size text := by
  show text.foldl _ (0 + c.utf8Size) = _
  rw [foldl_utf8Size, Nat.zero_add]

@[simp] theorem size_append (front back : List Char) :
    size (front ++ back) = size front + size back := by
  induction front with
  | nil => simp
  | cons c front ih => simp [ih, Nat.add_assoc]

/-- Every character takes a byte at least. -/
theorem length_le_size (text : List Char) : text.length ≤ size text := by
  induction text with
  | nil => exact Nat.zero_le _
  | cons c text ih =>
      have hc : 0 < c.utf8Size := Char.utf8Size_pos c
      rw [List.length_cons, size_cons]
      omega

/-- The bytes of a string are those of its characters. -/
theorem size_toList (s : String) : size s.toList = s.utf8ByteSize := by
  have hlist : ∀ text : List Char, (String.ofList text).utf8ByteSize = size text := by
    intro text
    induction text with
    | nil => rfl
    | cons c text ih =>
        rw [← List.singleton_append, String.ofList_append, String.utf8ByteSize_append, ih,
          ← String.singleton_eq_ofList, String.utf8ByteSize_singleton, List.singleton_append,
          size_cons]
  rw [← hlist, String.ofList_toList]

/-- **Dropping the bytes of a front part leaves the rest.** -/
theorem drop_size_append (front back : List Char) :
    drop (size front) (front ++ back) = back := by
  induction front with
  | nil => simp [drop]
  | cons c front ih =>
      have hc : 0 < c.utf8Size := Char.utf8Size_pos c
      -- The first character is dropped whole, since all its bytes are among those to drop.
      obtain ⟨k, hk⟩ : ∃ k, c.utf8Size + size front = k + 1 :=
        ⟨c.utf8Size + size front - 1, by omega⟩
      rw [size_cons, hk]
      show drop (k + 1 - c.utf8Size) (front ++ back) = back
      rw [show k + 1 - c.utf8Size = size front by omega, ih]

example : size "d6 é€😀".toList = 12 := by decide
example : drop 3 "d6 é€😀".toList = "é€😀".toList := by decide

end TabletopDice.Utf8
