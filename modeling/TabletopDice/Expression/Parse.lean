/-
  TabletopDice.Expression.Parse
  ──────────────────────────────────────
  **FROM TEXT TO EXPRESSION.**

  The text is scanned to its end and the tokens are folded: every term takes
  the sign of the operator in front of it, and the first term stands after an
  implied plus.  A scan that stops early is an error at the place where it
  stopped; one that reaches the end must have read something, and a term last.
-/
import TabletopDice.Expression.Basic
import TabletopDice.ParseError
import TabletopDice.Scan

namespace TabletopDice

/-! ## §1. Folding the operators into the terms. -/

namespace Token

/-- The terms among the tokens, each under the operator that was read last
before it, `last` standing in front of them all. -/
def signedTerms : (last : Operator) → List Token → List Term
  | _, [] => []
  | _, .operator op :: tokens => signedTerms op tokens
  -- A term leaves the operator in place for whatever comes next.
  | last, .term t :: tokens => last.apply t :: signedTerms last tokens

end Token

/-! ## §2. Parsing. -/

namespace Expression

/-- The outcome of a text that was read to its end.  The last token tells how
it came to an end. -/
def ofTokens (tokens : List Token) : Except ParseError Expression :=
  match tokens.getLast? with
  | none => .error .empty
  | some (.operator _) => .error .trailingOperator
  | some (.term _) => .ok ⟨Token.signedTerms .add tokens⟩

/-- The outcome of a finished scan of `source`. -/
def ofScan (source : List Char) (scan : Scan) : Except ParseError Expression :=
  match scan.rest with
  | [] => ofTokens scan.tokens
  | rest => .error (.unreadableAt source rest)

/-- Read an expression from a list of characters. -/
def ofChars (source : List Char) : Except ParseError Expression :=
  ofScan source (Scan.ofText source)

/-- **Read a dice expression** such as `3d6 + 2d4 - 5`. -/
def parse (source : String) : Except ParseError Expression := ofChars source.toList

/-! ## §3. The two ways in which a scan ends. -/

/-- A text that is used up is told by its tokens. -/
theorem ofChars_of_used {source : List Char} (h : (Scan.ofText source).rest = []) :
    ofChars source = ofTokens (Scan.ofText source).tokens := by
  unfold ofChars ofScan
  rw [h]

/-- A text that is not used up is an error, whatever was read of it. -/
theorem ofChars_of_stuck {source : List Char} (h : (Scan.ofText source).rest ≠ []) :
    ofChars source = .error (.unreadableAt source (Scan.ofText source).rest) := by
  unfold ofChars ofScan
  split
  · next hrest => exact absurd hrest h
  · rfl

/-- Tokens make an expression exactly when a term is the last of them. -/
theorem ofTokens_eq_ok_iff {tokens : List Token} {e : Expression} :
    ofTokens tokens = .ok e ↔
      (∃ t, tokens.getLast? = some (.term t)) ∧ e = ⟨Token.signedTerms .add tokens⟩ := by
  unfold ofTokens
  constructor
  · intro h
    split at h
    · cases h
    · cases h
    · next t hlast =>
        injection h with h
        exact ⟨⟨t, hlast⟩, h.symm⟩
  · rintro ⟨⟨t, hlast⟩, rfl⟩
    rw [hlast]

/-- **A text is accepted when its scan uses it up and ends with a term.** -/
theorem ofChars_eq_ok_iff {source : List Char} {e : Expression} :
    ofChars source = .ok e ↔
      (Scan.ofText source).rest = [] ∧
        (∃ t, (Scan.ofText source).tokens.getLast? = some (.term t)) ∧
          e = ⟨Token.signedTerms .add (Scan.ofText source).tokens⟩ := by
  by_cases h : (Scan.ofText source).rest = []
  · rw [ofChars_of_used h, ofTokens_eq_ok_iff]
    exact ⟨fun hok => ⟨h, hok⟩, fun hok => hok.2⟩
  · rw [ofChars_of_stuck h]
    constructor
    · intro hok
      cases hok
    · intro hok
      exact absurd hok.1 h

end Expression

end TabletopDice
