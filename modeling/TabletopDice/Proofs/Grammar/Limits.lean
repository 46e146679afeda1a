/-
  TabletopDice.Proofs.Grammar.Limits
  ──────────────────────────────────────
  **WHAT A NOTATION CANNOT EXCEED.**

  The grammar bounds every number it lets through, so an accepted expression
  is well-formed (`wellFormed_of_parse`); and every term after the first needs
  an operator and a character of its own, so the bytes of a notation bound the
  number of its terms (`two_mul_length_le_of_parse`).
-/
import TabletopDice.Proofs.Grammar.Acceptance

namespace TabletopDice

open Grammar

namespace Grammar

/-! ## §1. Within the limits. -/

/-- **A term of the grammar is within the limits and not negative.** -/
theorem TermText.wellFormed {text : List Char} {t : Term} (h : TermText text t) :
    t.WithinLimits ∧ t.isNegative = false := by
  cases h with
  | @constant text n h =>
      have hle : n ≤ Reader.maxNumber := h.within
      have hlo := h.one_le
      have hmax : Reader.maxNumber = UInt32.size - 1 := rfl
      have hv : (Constant.ofUInt32 (UInt32.ofNat n)).value.toInt = n := by
        rw [Constant.toInt_ofUInt32, Reader.toNat_ofNat_of_le hle]
      -- A number is positive and holds 32 bits at most; a constant of it has this value.
      refine ⟨?_, ?_⟩
      · show 1 ≤ Int.natAbs _ ∧ Int.natAbs _ < UInt32.size
        rw [hv]
        omega
      · rw [Term.isNegative_constant, hv]
        exact decide_eq_false (by omega)
  | dice hc _ hn => exact ⟨Dice.withinLimits_of_texts hc hn, rfl⟩

/-- All terms of a tail are within the limits: their operators change signs only. -/
theorem Tail.withinLimits {rest : List Char} {ts : List Term} (h : Tail rest ts) :
    ∀ t ∈ ts, t.WithinLimits := by
  induction h with
  | done _ =>
      intro t ht
      cases ht
  | @more before after text rest op u us _ _ htext _ ih =>
      intro t ht
      rcases List.mem_cons.1 ht with rfl | ht
      · exact op.withinLimits_apply htext.wellFormed.1
      · exact ih t ht

/-- **Only well-formed expressions have a notation.** -/
theorem wellFormed_of_spells {source : List Char} {e : Expression} (h : Spells source e) :
    e.WellFormed := by
  cases h with
  | @intro spaces text rest t ts _ htext htail =>
      -- There is a first term, it stands after no minus, and no number is too large.
      refine ⟨List.cons_ne_nil t ts, ?_, ?_⟩
      · intro u hu
        cases hu
        exact htext.wellFormed.2
      · intro u hu
        rcases List.mem_cons.1 hu with rfl | hu
        · exact htext.wellFormed.1
        · exact htail.withinLimits u hu

/-! ## §2. No more terms than there is room for. -/

/-- A term takes a character at least. -/
theorem TermText.one_le_length {text : List Char} {t : Term} (h : TermText text t) :
    1 ≤ text.length := by
  cases h with
  | constant h => exact List.length_pos_iff.2 h.nonempty
  | dice _ _ _ =>
      rw [List.length_append, List.length_cons]
      omega

/-- Each later term takes two characters at least: its sign and one of its own. -/
theorem Tail.two_mul_length_le {rest : List Char} {ts : List Term} (h : Tail rest ts) :
    2 * ts.length ≤ rest.length := by
  induction h with
  | done _ => exact Nat.zero_le _
  | more _ _ htext _ ih =>
      have hone := htext.one_le_length
      simp only [List.length_append, List.length_cons]
      omega

/-- The first term does without a sign. -/
theorem two_mul_length_le_of_spells {source : List Char} {e : Expression}
    (h : Spells source e) : 2 * e.length ≤ source.length + 1 := by
  cases h with
  | @intro spaces text rest t ts _ htext htail =>
      have hone := htext.one_le_length
      have hmore := htail.two_mul_length_le
      show 2 * (t :: ts).length ≤ _
      simp only [List.length_append, List.length_cons]
      omega

end Grammar

/-! ## §3. Accepted expressions. -/

namespace Expression

variable {source : String} {e : Expression}

/-- **Accepted expressions are well-formed.** -/
theorem wellFormed_of_parse (h : parse source = .ok e) : e.WellFormed :=
  wellFormed_of_spells (spells_of_ofChars h)

/-- **A notation has about half as many terms as bytes, at most.** -/
theorem two_mul_length_le_of_parse (h : parse source = .ok e) :
    2 * e.length ≤ source.utf8ByteSize + 1 := by
  have hlength := two_mul_length_le_of_spells (spells_of_ofChars h)
  -- A character takes a byte at least.
  have hbytes := Utf8.length_le_size source.toList
  rw [Utf8.size_toList] at hbytes
  omega

end Expression

end TabletopDice
