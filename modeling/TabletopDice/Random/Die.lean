/-
  TabletopDice.Random.Die
  ──────────────────────────────────────
  **ONE DIE, THROWN FAIRLY.**

  A word times the number of sides is a 64-bit number.  Its upper half is a
  face counted from zero; its lower half decides whether the word is accepted.
  Accepted are the words whose lower half lies in the zone, the greatest
  product of the number of sides and a power of two that 32 bits can hold:
  that many words stand behind every face.  A rejected word is drawn and
  forgotten.

  A throw has the **patience** for a number of words and fails when none of
  them is accepted.
-/
import TabletopDice.Random.Source

namespace TabletopDice

/-- Something that rolls: it draws words from a source, and may run out of
patience. -/
abbrev Roller (σ : Type) := StateT σ Option

namespace Die

/-! ## §1. Words and faces. -/

/-- The number of zero bits in front of a positive number of sides. -/
def leadingZeros (sides : UInt32) : UInt32 := 31 - sides.log2

/-- The greatest lower half that is accepted. -/
def zone (sides : UInt32) : UInt32 := (sides <<< leadingZeros sides) - 1

/-- A word times the number of sides, which always fits in 64 bits. -/
def product (sides word : UInt32) : UInt64 := word.toUInt64 * sides.toUInt64

/-- The upper half of a product: a face, counted from zero. -/
def upper (p : UInt64) : UInt32 := (p >>> 32).toUInt32

/-- The lower half of a product, which decides whether the word counts. -/
def lower (p : UInt64) : UInt32 := p.toUInt32

/-- The face of a word: one more than the upper half of the product, if the
lower half is in the zone.  A die without sides shows no face. -/
def faceOf? (sides word : UInt32) : Option UInt32 :=
  if sides = 0 then none
  else if lower (product sides word) ≤ zone sides then some (upper (product sides word) + 1)
  else none

theorem toNat_pos {sides : UInt32} (h : sides ≠ 0) : 0 < sides.toNat := by
  rw [Nat.pos_iff_ne_zero]
  exact fun hzero => h (UInt32.toNat_inj.1 hzero)

theorem ne_zero_of_lt {sides : UInt32} {k : Nat} (hk : k < sides.toNat) : sides ≠ 0 := by
  rintro rfl
  exact absurd hk (Nat.not_lt_zero k)

theorem ne_zero_of_one_le {sides : UInt32} (h : 1 ≤ sides) : sides ≠ 0 :=
  ne_zero_of_lt (UInt32.le_iff_toNat_le.1 h)

/-- The upper half over the integers.  The product of two 32-bit numbers loses
nothing in 64 bits. -/
theorem toNat_upper_product (sides word : UInt32) :
    (upper (product sides word)).toNat = word.toNat * sides.toNat / UInt32.size := by
  have hw : word.toNat < UInt32.size := word.toNat_lt
  have hs : sides.toNat < UInt32.size := sides.toNat_lt
  -- A 32-bit number times another leaves room in 64 bits.
  have hfits : word.toNat * sides.toNat < UInt32.size * UInt32.size := Nat.mul_lt_mul'' hw hs
  have hproduct : (product sides word).toNat = word.toNat * sides.toNat := by
    unfold product
    rw [UInt64.toNat_mul, UInt32.toNat_toUInt64, UInt32.toNat_toUInt64, Nat.mod_eq_of_lt]
    exact hfits
  unfold upper
  rw [UInt64.toNat_toUInt32, UInt64.toNat_shiftRight, hproduct]
  show (word.toNat * sides.toNat) >>> 32 % UInt32.size = _
  rw [Nat.shiftRight_eq_div_pow]
  show word.toNat * sides.toNat / UInt32.size % UInt32.size = _
  exact Nat.mod_eq_of_lt (Nat.div_lt_of_lt_mul hfits)

/-- **A face is one of the sides.** -/
theorem face_between {sides word face : UInt32} (h : faceOf? sides word = some face) :
    1 ≤ face.toNat ∧ face.toNat ≤ sides.toNat := by
  unfold faceOf? at h
  split at h
  · cases h
  · rename_i hsides
    split at h
    · injection h with h
      have hw : word.toNat < UInt32.size := word.toNat_lt
      have hs : sides.toNat < UInt32.size := sides.toNat_lt
      have hpos : 0 < sides.toNat := toNat_pos hsides
      -- The word is below `2^32`, so the upper half is below the number of sides.
      have hupper : (upper (product sides word)).toNat < sides.toNat := by
        rw [toNat_upper_product]
        exact Nat.div_lt_of_lt_mul (Nat.mul_lt_mul_of_pos_right hw hpos)
      rw [← h, UInt32.toNat_add, Nat.mod_eq_of_lt]
      · show 1 ≤ _ + 1 ∧ _ + 1 ≤ _
        omega
      · show _ + 1 < UInt32.size
        omega
    · cases h

/-! ## §2. Throwing. -/

/-- Patience for more words than a 64-bit sequence has states. -/
def amplePatience : Nat := 2 * UInt64.size

/-- Throw a die: draw words until one is accepted. -/
def throw {σ : Type} [WordSource σ] (sides : UInt32) : (patience : Nat) → Roller σ UInt32
  | 0, _ => none
  | patience + 1, source =>
      let (word, source) := WordSource.next source
      match faceOf? sides word with
      | some face => some (face, source)
      -- A rejected word is drawn all the same.
      | none => throw sides patience source

example : zone 6 = 0xBFFFFFFF := by decide
example : faceOf? 6 0xFFFFFFFF = none := by decide
example : faceOf? 6 0xEAAAAAAA = some 6 := by decide
example : faceOf? 1 0x80000000 = none ∧ faceOf? 1 0x7FFFFFFF = some 1 := by decide

end Die

end TabletopDice
