/-
  TabletopDice.Token
  ──────────────────────────────────────
  **THE TOKENS OF AN EXPRESSION: terms, not negative yet, and the operators
  between them.**  Spaces leave no token.
-/
import TabletopDice.Term.Basic

namespace TabletopDice

/-- What a piece of the notation stands for. -/
inductive Token
  | term (t : Term)
  | operator (o : Operator)
deriving DecidableEq

end TabletopDice
