/-
  TabletopDice.Expression.Grammar
  ──────────────────────────────────────
  **THE NOTATION OF DICE EXPRESSIONS, said without a scan.**

  Spaces may stand around terms and operators and nowhere else.  A term is a
  constant or a group of dice; numbers have no leading zero and are limited;
  each term takes the sign of the operator in front of it, and the first one
  stands without an operator.

  Every rule names a text and what it stands for, so the grammar is a relation
  between texts and expressions: `Spells text e`.
-/
import TabletopDice.Expression.Basic
import TabletopDice.Pattern.Reader

namespace TabletopDice.Grammar

/-! ## §1. Spaces and numbers. -/

/-- Nothing but spaces. -/
def Spaces (text : List Char) : Prop := ∀ c ∈ text, c = ' '

/-- A number: at least one digit, no leading zero, and a value up to a limit. -/
structure Spelled (limit : Nat) (text : List Char) (value : Nat) : Prop where
  digits : ∀ c ∈ text, c.isDigit = true
  nonempty : text ≠ []
  no_leading_zero : text.head? ≠ some '0'
  value_eq : Nat.ofDigitChars 10 text 0 = value
  within : value ≤ limit

/-- The count of a group, which is one where none is written. -/
inductive CountText : List Char → Nat → Prop
  | omitted : CountText [] 1
  | written {text : List Char} {n : Nat} :
      Spelled maxCount.toNat text n → CountText text n

/-- The number of sides of a group, a percent sign standing for a hundred. -/
inductive SidesText : List Char → Nat → Prop
  | percentile : SidesText ['%'] Reader.percentileSides
  | written {text : List Char} {n : Nat} :
      Spelled Reader.maxNumber text n → SidesText text n

/-! ## §2. Terms. -/

/-- A term without its sign. -/
inductive TermText : List Char → Term → Prop
  | constant {text : List Char} {n : Nat} :
      Spelled Reader.maxNumber text n →
      TermText text (.constant (.ofUInt32 (UInt32.ofNat n)))
  | dice {count sides : List Char} {letter : Char} {c n : Nat} :
      CountText count c → (letter = 'd' ∨ letter = 'D') → SidesText sides n →
      TermText (count ++ letter :: sides)
        (.dice ⟨UInt32.ofNat c, UInt32.ofNat n, .positive⟩)

/-! ## §3. Expressions. -/

/-- The sign that an operator is written with. -/
def operatorSign : Operator → Char
  | .add => '+'
  | .sub => '-'

/-- What may follow a term: spaces, and then nothing or an operator with
another term and what follows that. -/
inductive Tail : List Char → List Term → Prop
  | done {spaces : List Char} : Spaces spaces → Tail spaces []
  | more {before after text rest : List Char} {op : Operator} {t : Term} {ts : List Term} :
      Spaces before → Spaces after → TermText text t → Tail rest ts →
      Tail (before ++ operatorSign op :: (after ++ (text ++ rest))) (op.apply t :: ts)

/-- **The text spells the expression.** -/
inductive Spells : List Char → Expression → Prop
  | intro {spaces text rest : List Char} {t : Term} {ts : List Term} :
      Spaces spaces → TermText text t → Tail rest ts →
      Spells (spaces ++ (text ++ rest)) ⟨t :: ts⟩

end TabletopDice.Grammar
