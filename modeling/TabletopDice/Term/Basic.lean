/-
  TabletopDice.Term.Basic
  ──────────────────────────────────────
  **WHAT AN EXPRESSION IS MADE OF: groups of dice and constants, each with a
  sign.**

  A group of dice rolls `count` dice of `sides` sides; a negative group counts
  every face below zero.  A constant carries its sign in its value.  Negating
  a term makes it negative and does so **once and for all**: a second negation
  changes nothing (`Term.negate_negate`).

  `WithinLimits` is what the notation can say of a term.
-/
import TabletopDice.Word.Saturating

namespace TabletopDice

/-- A 32-bit number is itself among the signed 64-bit ones. -/
theorem toInt_toInt64_toUInt64 (n : UInt32) : n.toUInt64.toInt64.toInt = n.toNat := by
  have heq : n.toUInt64.toNat = n.toNat := UInt32.toNat_toUInt64 n
  have hlt : n.toNat < 2 ^ 32 := n.toNat_lt
  show n.toUInt64.toBitVec.toInt = n.toNat
  rw [BitVec.toInt_eq_toNat_of_lt]
  · rfl
  · show 2 * n.toUInt64.toNat < 2 ^ 64
    omega

/-! ## §1. Signs and operators. -/

/-- The sign of a group of dice. -/
inductive Sign
  | positive
  | negative
deriving DecidableEq

/-- The value under the sign: a negative sign turns it around. -/
def Sign.apply : Sign → Int64 → Int64
  | .positive, value => value
  | .negative, value => -value

/-- The number under the sign. -/
def Sign.times : Sign → Int → Int
  | .positive, i => i
  | .negative, i => -i

/-- **A sign turns a word around as it does its number**, the least word
apart, which has no twin. -/
theorem Sign.toInt_apply (s : Sign) {value : Int64} (h : Fits (-value.toInt)) :
    (s.apply value).toInt = s.times value.toInt := by
  cases s with
  | positive => rfl
  | negative => exact toInt_neg_of_fits h

/-- The face of a die under a sign. -/
theorem Sign.toInt_apply_face (s : Sign) (face : UInt32) :
    (s.apply face.toUInt64.toInt64).toInt = s.times face.toNat := by
  have hface := toInt_toInt64_toUInt64 face
  rw [s.toInt_apply (fits_neg_of_nonneg (by omega)), hface]

/-- What joins two terms. -/
inductive Operator
  | add
  | sub
deriving DecidableEq

/-! ## §2. Dice and constants. -/

/-- The most dice that one group may roll. -/
def maxCount : UInt32 := 10000

/-- A group of `count` dice with `sides` sides each. -/
structure Dice where
  count : UInt32
  sides : UInt32
  sign : Sign
deriving DecidableEq

/-- A fixed number, signed. -/
structure Constant where
  value : Int64
deriving DecidableEq

namespace Dice

/-- A positive group brought within the limits: `1` to `maxCount` dice, and at
least one side. -/
def clamped (count sides : UInt32) : Dice where
  count := max 1 (min count maxCount)
  sides := max 1 sides
  sign := .positive

/-- Count every face below zero. -/
def negate (d : Dice) : Dice := { d with sign := .negative }

/-- The groups that the notation can say. -/
def WithinLimits (d : Dice) : Prop :=
  1 ≤ d.count ∧ d.count ≤ maxCount ∧ 1 ≤ d.sides

instance (d : Dice) : Decidable d.WithinLimits :=
  inferInstanceAs (Decidable (1 ≤ d.count ∧ d.count ≤ maxCount ∧ 1 ≤ d.sides))

/-- A group within the limits is not changed by bringing it there. -/
theorem clamped_eq {count sides : UInt32} (hlo : 1 ≤ count) (hhi : count ≤ maxCount)
    (hs : 1 ≤ sides) : clamped count sides = ⟨count, sides, .positive⟩ := by
  have hmin : min count maxCount = count := if_pos hhi
  have hmax : max 1 count = count := if_pos hlo
  have hsides : max 1 sides = sides := if_pos hs
  unfold clamped
  rw [hmin, hmax, hsides]

theorem negate_negate (d : Dice) : d.negate.negate = d.negate := rfl

end Dice

namespace Constant

/-- A constant from an unsigned number. -/
def ofUInt32 (n : UInt32) : Constant := ⟨n.toUInt64.toInt64⟩

/-- Put the value below zero, at the same distance.  The least value of the
range has no such twin and comes out one closer to zero. -/
def negate (c : Constant) : Constant := ⟨-(Saturating.abs c.value)⟩

/-- The constants that the notation can say. -/
def WithinLimits (c : Constant) : Prop :=
  1 ≤ c.value.toInt.natAbs ∧ c.value.toInt.natAbs < UInt32.size

instance (c : Constant) : Decidable c.WithinLimits :=
  inferInstanceAs (Decidable (1 ≤ c.value.toInt.natAbs ∧ c.value.toInt.natAbs < UInt32.size))

/-- A 32-bit number is its own constant. -/
theorem toInt_ofUInt32 (n : UInt32) : (ofUInt32 n).value.toInt = n.toNat :=
  toInt_toInt64_toUInt64 n

/-- **Negated is the distance from zero, turned around**: of the least value, one less. -/
theorem toInt_negate (c : Constant) :
    c.negate.value.toInt = -min (c.value.toInt.natAbs : Int) Int64.maxValue.toInt := by
  have habs := Saturating.toInt_abs c.value
  have hhi : 0 ≤ Int64.maxValue.toInt := by decide
  show (-(Saturating.abs c.value)).toInt = _
  rw [← habs]
  exact toInt_neg_of_fits (fits_neg_of_nonneg (by omega))

/-- **Within the limits nothing is held back**: negating keeps the distance
from zero. -/
theorem toInt_negate_of_withinLimits {c : Constant} (h : c.WithinLimits) :
    c.negate.value.toInt = -(c.value.toInt.natAbs : Int) := by
  have hlt := h.2
  have hlarge : (UInt32.size : Int) ≤ Int64.maxValue.toInt := by decide
  rw [toInt_negate]
  omega

theorem negate_negate (c : Constant) : c.negate.negate = c.negate := by
  have h := toInt_negate c
  have h' := toInt_negate c.negate
  have hhi : 0 ≤ Int64.maxValue.toInt := by decide
  have hv : c.negate.negate.value = c.negate.value := by
    apply Int64.toInt.inj
    rw [h']
    omega
  exact congrArg Constant.mk hv

end Constant

/-! ## §3. Terms. -/

/-- One term of an expression. -/
inductive Term
  | dice (d : Dice)
  | constant (c : Constant)
deriving DecidableEq

namespace Term

/-- Make a term negative. -/
def negate : Term → Term
  | .dice d => .dice d.negate
  | .constant c => .constant c.negate

/-- A group of dice is negative by its sign, a constant by its value. -/
def isNegative : Term → Bool
  | .dice d => d.sign = .negative
  | .constant c => c.value < 0

theorem isNegative_constant (c : Constant) :
    (constant c).isNegative = decide (c.value.toInt < 0) :=
  decide_eq_decide.2 Int64.lt_iff_toInt_lt

/-- The terms that the notation can say. -/
def WithinLimits : Term → Prop
  | .dice d => d.WithinLimits
  | .constant c => c.WithinLimits

instance : (t : Term) → Decidable t.WithinLimits
  | .dice d => inferInstanceAs (Decidable d.WithinLimits)
  | .constant c => inferInstanceAs (Decidable c.WithinLimits)

/-- Negating a term leaves it within the limits. -/
theorem WithinLimits.negate {t : Term} (h : t.WithinLimits) : t.negate.WithinLimits := by
  cases t with
  | dice d => exact h
  | constant c =>
      have hc : c.WithinLimits := h
      -- The distance from zero stays as it was.
      have hv := Constant.toInt_negate_of_withinLimits hc
      obtain ⟨hlo, hhi⟩ := hc
      show 1 ≤ c.negate.value.toInt.natAbs ∧ c.negate.value.toInt.natAbs < UInt32.size
      omega

/-- **Negation is once and for all.** -/
theorem negate_negate (t : Term) : t.negate.negate = t.negate := by
  cases t with
  | dice d => rfl
  | constant c =>
      show Term.constant c.negate.negate = Term.constant c.negate
      rw [Constant.negate_negate]

end Term

/-- A term as it stands after an operator. -/
def Operator.apply : Operator → Term → Term
  | .add, t => t
  | .sub, t => t.negate

theorem Operator.withinLimits_apply (op : Operator) {t : Term} (h : t.WithinLimits) :
    (op.apply t).WithinLimits := by
  cases op with
  | add => exact h
  | sub => exact h.negate

end TabletopDice
