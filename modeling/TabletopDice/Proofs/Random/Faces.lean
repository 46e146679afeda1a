/-
  TabletopDice.Proofs.Random.Faces
  ──────────────────────────────────────
  **THE WORDS BEHIND A FACE.**

  A word shows face `k`, counted from zero, when its product with the number
  of sides lies in a window that begins at `k * 2^32` and is as long as the
  zone.  The zone is `share` times the number of sides, so each window holds
  `share` products, and the words behind them follow one another.

    • `toNat_zone`, `toNat_lower_product` — the words of the die over the
      integers,
    • `mem_window_iff` — the window as a run of words,
    • `ncard_words_of_face` — every face has `share` words,
    • `size_le_two_mul_ncard_accepted` — at least every second word is
      accepted.
-/
import Mathlib.Algebra.Order.Floor.Div
import Mathlib.Data.Set.Card
import Mathlib.Order.Interval.Finset.Nat
import TabletopDice.Proofs.Roll.Draws

namespace TabletopDice.Die

/-! ## §1. The zone over the integers. -/

/-- The number of words behind each face. -/
def share (sides : UInt32) : Nat := 2 ^ (leadingZeros sides).toNat

/-- The highest bit of a number of sides is bit 31 at most. -/
theorem log2_toNat_le (sides : UInt32) : sides.toNat.log2 ≤ 31 := by
  by_cases h : sides.toNat = 0
  · simp [h]
  · have hlt : sides.toNat.log2 < 32 := (Nat.log2_lt h).2 sides.toNat_lt
    omega

/-- So many zeros stand in front of it. -/
theorem toNat_leadingZeros (sides : UInt32) :
    (leadingZeros sides).toNat = 31 - sides.toNat.log2 := by
  have hlog : sides.log2.toNat = sides.toNat.log2 := rfl
  have hle : sides.log2 ≤ 31 := by
    rw [UInt32.le_iff_toNat_le, hlog]
    exact log2_toNat_le sides
  unfold leadingZeros
  rw [UInt32.toNat_sub_of_le _ _ hle, hlog]
  rfl

/-- **The shares of all faces fill at least half of the words, and not all of
them**: the number of sides is shifted as far as 32 bits can hold. -/
theorem sides_mul_share {sides : UInt32} (h : sides ≠ 0) :
    2 ^ 31 ≤ sides.toNat * share sides ∧ sides.toNat * share sides < UInt32.size := by
  have hne : sides.toNat ≠ 0 := Nat.ne_of_gt (toNat_pos h)
  have hle := log2_toNat_le sides
  have hlo : 2 ^ sides.toNat.log2 ≤ sides.toNat := Nat.log2_self_le hne
  have hhi : sides.toNat < 2 ^ (sides.toNat.log2 + 1) := Nat.lt_log2_self
  have hpow : 0 < 2 ^ (31 - sides.toNat.log2) := Nat.two_pow_pos _
  unfold share
  rw [toNat_leadingZeros]
  -- The highest bit is moved to the front, from below and from above.
  constructor
  · calc
      2 ^ 31 = 2 ^ sides.toNat.log2 * 2 ^ (31 - sides.toNat.log2) := by
        rw [← Nat.pow_add]
        congr 1
        omega
      _ ≤ sides.toNat * 2 ^ (31 - sides.toNat.log2) := Nat.mul_le_mul_right _ hlo
  · calc
      sides.toNat * 2 ^ (31 - sides.toNat.log2)
        < 2 ^ (sides.toNat.log2 + 1) * 2 ^ (31 - sides.toNat.log2) :=
          Nat.mul_lt_mul_of_pos_right hhi hpow
      _ = 2 ^ 32 := by
        rw [← Nat.pow_add]
        congr 1
        omega

/-- The zone ends right below the shares of all faces. -/
theorem toNat_zone {sides : UInt32} (h : sides ≠ 0) :
    (zone sides).toNat + 1 = sides.toNat * share sides := by
  obtain ⟨hlo, hhi⟩ := sides_mul_share h
  -- No bit is shifted out, so the shift is a product over the integers.
  have hshift : (sides <<< leadingZeros sides).toNat = sides.toNat * share sides := by
    have hlt : (leadingZeros sides).toNat < 32 := by
      rw [toNat_leadingZeros]
      omega
    rw [UInt32.toNat_shiftLeft, Nat.mod_eq_of_lt hlt, Nat.shiftLeft_eq]
    exact Nat.mod_eq_of_lt hhi
  have hone : (1 : UInt32) ≤ sides <<< leadingZeros sides := by
    rw [UInt32.le_iff_toNat_le, hshift]
    exact Nat.le_trans (by decide) hlo
  unfold zone
  rw [UInt32.toNat_sub_of_le _ _ hone, hshift]
  show sides.toNat * share sides - 1 + 1 = _
  omega

/-- The lower half of the product is what is left over `2^32`. -/
theorem toNat_lower_product (sides word : UInt32) :
    (lower (product sides word)).toNat = word.toNat * sides.toNat % UInt32.size := by
  unfold lower product
  rw [UInt64.toNat_toUInt32, UInt64.toNat_mul, UInt32.toNat_toUInt64, UInt32.toNat_toUInt64]
  show word.toNat * sides.toNat % 2 ^ 64 % 2 ^ 32 = _
  -- Reducing modulo `2^64` first does not show modulo `2^32`.
  exact Nat.mod_mod_of_dvd _ (by decide)

/-- A word is accepted by the lower half of its product. -/
theorem lower_le_zone_iff {sides : UInt32} (h : sides ≠ 0) (word : UInt32) :
    lower (product sides word) ≤ zone sides ↔
      word.toNat * sides.toNat % UInt32.size < sides.toNat * share sides := by
  have hzone := toNat_zone h
  rw [UInt32.le_iff_toNat_le, toNat_lower_product]
  omega

/-- **The face of a word over the integers**: the product with the number of
sides tells by its lower half whether the word is accepted and by its upper
half which face it shows. -/
theorem faceOf?_eq_some_iff {sides word face : UInt32} (h : sides ≠ 0) :
    faceOf? sides word = some face ↔
      word.toNat * sides.toNat % UInt32.size < sides.toNat * share sides ∧
        word.toNat * sides.toNat / UInt32.size + 1 = face.toNat := by
  -- The upper half is a face counted from zero, so one more does not overflow.
  have hupper : (upper (product sides word)).toNat < sides.toNat := by
    rw [toNat_upper_product]
    exact Nat.div_lt_of_lt_mul (Nat.mul_lt_mul_of_pos_right word.toNat_lt (toNat_pos h))
  have hface : (upper (product sides word) + 1).toNat
      = word.toNat * sides.toNat / UInt32.size + 1 := by
    have hsides : sides.toNat < UInt32.size := sides.toNat_lt
    rw [UInt32.toNat_add, Nat.mod_eq_of_lt, toNat_upper_product]
    · rfl
    · show (upper (product sides word)).toNat + 1 < UInt32.size
      omega
  unfold faceOf?
  rw [if_neg h, ← lower_le_zone_iff h, ← hface, UInt32.toNat_inj]
  split
  · next hle => simp [hle]
  · next hle => simp [hle]

/-! ## §2. The window of a face. -/

/-- The first word whose product reaches the window of a face, the faces being
counted from zero. -/
def firstWord (sides : UInt32) (k : Nat) : Nat := k * UInt32.size ⌈/⌉ sides.toNat

/-- **The words behind a face follow one another.** -/
theorem mem_window_iff {sides : UInt32} (h : sides ≠ 0) {k w : Nat} :
    w * sides.toNat % UInt32.size < sides.toNat * share sides ∧
        w * sides.toNat / UInt32.size = k ↔
      w ∈ Finset.Ico (firstWord sides k) (firstWord sides k + share sides) := by
  have hpos := toNat_pos h
  obtain ⟨-, hhi⟩ := sides_mul_share h
  -- The window of products: from `k * 2^32` on, as long as the zone.
  have hproducts : w * sides.toNat % UInt32.size < sides.toNat * share sides ∧
        w * sides.toNat / UInt32.size = k ↔
      k * UInt32.size ≤ sides.toNat * w ∧
        sides.toNat * w < k * UInt32.size + sides.toNat * share sides := by
    have hsize : 0 < UInt32.size := by decide
    have hdiv := Nat.div_add_mod (w * sides.toNat) UInt32.size
    have hmod := Nat.mod_lt (w * sides.toNat) hsize
    rw [Nat.mul_comm sides.toNat w]
    constructor
    · rintro ⟨hlt, rfl⟩
      rw [Nat.mul_comm (w * sides.toNat / UInt32.size)]
      omega
    · rintro ⟨hlo, hlt⟩
      have hk : w * sides.toNat / UInt32.size = k :=
        Nat.div_eq_of_lt_le hlo (by rw [Nat.succ_mul]; omega)
      rw [hk, Nat.mul_comm UInt32.size k] at hdiv
      exact ⟨by omega, hk⟩
  -- The window of words: the products are the multiples of the sides.
  have hfirst : firstWord sides k ≤ w ↔ k * UInt32.size ≤ sides.toNat * w :=
    ceilDiv_le_iff_le_mul hpos
  have hlast : w < firstWord sides k + share sides ↔
      sides.toNat * w < k * UInt32.size + sides.toNat * share sides := by
    -- The first `share` words lie in front of the end of every window.
    by_cases hw : w < share sides
    · have hmul : sides.toNat * w < sides.toNat * share sides :=
        Nat.mul_lt_mul_of_pos_left hw hpos
      exact ⟨fun _ => by omega, fun _ => by omega⟩
    · obtain ⟨v, rfl⟩ : ∃ v, w = v + share sides := ⟨w - share sides, by omega⟩
      have hv : firstWord sides k ≤ v ↔ k * UInt32.size ≤ sides.toNat * v :=
        ceilDiv_le_iff_le_mul hpos
      rw [Nat.mul_add]
      omega
  rw [hproducts, Finset.mem_Ico, hfirst, hlast]

/-- No window of a face reaches beyond the words. -/
theorem lt_size_of_mem_window {sides : UInt32} {k w : Nat} (hk : k < sides.toNat)
    (hw : w ∈ Finset.Ico (firstWord sides k) (firstWord sides k + share sides)) :
    w < UInt32.size := by
  have h := ne_zero_of_lt hk
  obtain ⟨-, hface⟩ := (mem_window_iff h).2 hw
  -- A product of `2^32` or more times the sides lies behind the last face.
  by_contra hlarge
  have hproduct : sides.toNat * UInt32.size ≤ w * sides.toNat := by
    rw [Nat.mul_comm w]
    exact Nat.mul_le_mul_left _ (Nat.le_of_not_lt hlarge)
  have hlast : sides.toNat ≤ w * sides.toNat / UInt32.size :=
    (Nat.le_div_iff_mul_le (by decide)).2 hproduct
  omega

/-! ## §3. Counting words. -/

/-- Words are counted by their numbers. -/
theorem ncard_words_eq_card {accepted : Set UInt32} {numbers : Finset Nat}
    (hlt : ∀ w ∈ numbers, w < UInt32.size)
    (hmem : ∀ word : UInt32, word ∈ accepted ↔ word.toNat ∈ numbers) :
    accepted.ncard = numbers.card := by
  -- Numbers tell words apart, and each number of the set is that of a word.
  have hinj : Function.Injective UInt32.toNat := fun _ _ heq => UInt32.toNat_inj.1 heq
  have himage : UInt32.toNat '' accepted = ↑numbers := by
    ext w
    constructor
    · rintro ⟨word, hword, rfl⟩
      exact (hmem word).1 hword
    · intro hw
      have htoNat : (UInt32.ofNat w).toNat = w := UInt32.toNat_ofNat_of_lt' (hlt w hw)
      exact ⟨UInt32.ofNat w, (hmem _).2 (htoNat.symm ▸ hw), htoNat⟩
  rw [← Set.ncard_image_of_injective accepted hinj, himage, Set.ncard_coe_finset]

/-- **Every face has the same number of words.** -/
theorem ncard_words_of_face {sides face : UInt32} (h : Shows face sides) :
    {word | faceOf? sides word = some face}.ncard = share sides := by
  obtain ⟨hlo, hhi⟩ := h
  have hsides : sides ≠ 0 := ne_zero_of_lt (Nat.lt_of_lt_of_le hlo hhi)
  have hmem : ∀ word : UInt32, word ∈ {word | faceOf? sides word = some face} ↔
      word.toNat ∈ Finset.Ico (firstWord sides (face.toNat - 1))
        (firstWord sides (face.toNat - 1) + share sides) := by
    intro word
    -- Faces are counted from one, windows from zero.
    rw [Set.mem_ofPred_eq, faceOf?_eq_some_iff hsides, ← mem_window_iff hsides]
    omega
  rw [ncard_words_eq_card (fun w hw => lt_size_of_mem_window (by omega) hw) hmem, Nat.card_Ico]
  omega

/-- Every face is shown by some word. -/
theorem exists_word {sides face : UInt32} (h : Shows face sides) :
    ∃ word, faceOf? sides word = some face := by
  have hshare : share sides ≠ 0 := Nat.ne_of_gt (Nat.two_pow_pos _)
  rw [← ncard_words_of_face h] at hshare
  exact Set.nonempty_of_ncard_ne_zero hshare

/-- A word is accepted by what is left of its product over `2^32`. -/
theorem isSome_faceOf?_iff {sides word : UInt32} (h : sides ≠ 0) :
    (faceOf? sides word).isSome ↔
      word.toNat * sides.toNat % UInt32.size < sides.toNat * share sides := by
  unfold faceOf?
  rw [if_neg h, ← lower_le_zone_iff h]
  split
  · next hle => simp [hle]
  · next hle => simp [hle]

/-- The numbers of the accepted words. -/
def acceptedNumbers (sides : UInt32) : Finset Nat :=
  (Finset.range UInt32.size).filter
    fun w => w * sides.toNat % UInt32.size < sides.toNat * share sides

/-- The numbers of words have 32 bits. -/
theorem lt_size_of_mem_acceptedNumbers {sides : UInt32} {w : Nat}
    (hw : w ∈ acceptedNumbers sides) : w < UInt32.size :=
  Finset.mem_range.1 (Finset.mem_filter.1 hw).1

/-- Among them each face, counted from zero, has its window. -/
theorem filter_acceptedNumbers {sides : UInt32} {k : Nat} (hk : k < sides.toNat) :
    (acceptedNumbers sides).filter (fun w => w * sides.toNat / UInt32.size = k)
      = Finset.Ico (firstWord sides k) (firstWord sides k + share sides) := by
  have h := ne_zero_of_lt hk
  ext w
  unfold acceptedNumbers
  rw [Finset.mem_filter, Finset.mem_filter, Finset.mem_range, and_assoc, mem_window_iff h]
  exact ⟨fun hw => hw.2, fun hw => ⟨lt_size_of_mem_window hk hw, hw⟩⟩

/-- **As many words are accepted as all shares hold**, counted face by face. -/
theorem card_acceptedNumbers {sides : UInt32} (h : sides ≠ 0) :
    (acceptedNumbers sides).card = sides.toNat * share sides := by
  have hface : Set.MapsTo (fun w => w * sides.toNat / UInt32.size) ↑(acceptedNumbers sides)
      ↑(Finset.range sides.toNat) := by
    intro w hw
    have hlt := lt_size_of_mem_acceptedNumbers hw
    rw [Finset.coe_range, Set.mem_Iio]
    exact Nat.div_lt_of_lt_mul (Nat.mul_lt_mul_of_pos_right hlt (toNat_pos h))
  -- Each face has one window of accepted numbers, and no number has two faces.
  have hshare : ∀ k ∈ Finset.range sides.toNat,
      ((acceptedNumbers sides).filter
        fun w => w * sides.toNat / UInt32.size = k).card = share sides := by
    intro k hk
    rw [filter_acceptedNumbers (Finset.mem_range.1 hk), Nat.card_Ico]
    omega
  rw [Finset.card_eq_sum_card_fiberwise hface, Finset.sum_congr rfl hshare, Finset.sum_const,
    Finset.card_range, smul_eq_mul]

/-- **The accepted words are the shares of all faces.** -/
theorem ncard_accepted {sides : UInt32} (h : sides ≠ 0) :
    {word | (faceOf? sides word).isSome}.ncard = sides.toNat * share sides := by
  rw [← card_acceptedNumbers h]
  refine ncard_words_eq_card (fun w hw => lt_size_of_mem_acceptedNumbers hw) ?_
  intro word
  rw [Set.mem_ofPred_eq, isSome_faceOf?_iff h, acceptedNumbers, Finset.mem_filter,
    Finset.mem_range]
  exact ⟨fun hlt => ⟨word.toNat_lt, hlt⟩, fun hlt => hlt.2⟩

/-- **At least every second word is accepted**, whatever the number of
sides. -/
theorem size_le_two_mul_ncard_accepted {sides : UInt32} (h : sides ≠ 0) :
    UInt32.size ≤ 2 * {word | (faceOf? sides word).isSome}.ncard := by
  obtain ⟨hlo, -⟩ := sides_mul_share h
  have hsize : UInt32.size = 2 * 2 ^ 31 := rfl
  rw [ncard_accepted h]
  omega

end TabletopDice.Die
