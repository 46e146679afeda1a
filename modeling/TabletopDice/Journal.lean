/-
  TabletopDice.Journal
  ──────────────────────────────────────
  **WHAT HAPPENED, EVENT BY EVENT, while an expression was read and rolled.**

  Reading leaves one event for each step of the scan and one for its outcome.
  Rolling leaves one for each group of dice and one for the whole roll.
  Constants leave none.
-/
import TabletopDice.Expression.Display
import TabletopDice.Expression.Parse
import TabletopDice.Roll.Display
import TabletopDice.Text.Quoted

namespace TabletopDice

/-! ## §1. Events. -/

/-- How much a reader of the journal should care. -/
inductive Level
  | trace
  | debug
deriving DecidableEq

/-- Something worth an entry. -/
inductive Event
  | consumed (slot : Slot) (text : List Char)
  | rejected (source : List Char) (error : ParseError)
  | parsed (source : List Char) (terms : Nat)
  | thrown (dice : Dice) (faces : List Int64)
  | rolled (expression : Expression) (roll : Roll)
deriving DecidableEq

/-- The name of a level. -/
def Level.name : Level → String
  | .trace => "TRACE"
  | .debug => "DEBUG"

/-- The name of a slot. -/
def Slot.name : Slot → String
  | .leadingSpace => "LeadingSpace"
  | .term => "Term"
  | .trailingSpace => "TrailingSpace"
  | .operator => "Operator"

namespace Event

/-- Outcomes matter more than the steps that lead to them. -/
def level : Event → Level
  | .consumed _ _ => .trace
  | .rejected _ _ => .debug
  | .parsed _ _ => .debug
  | .thrown _ _ => .trace
  | .rolled _ _ => .debug

/-- The faces of a group in brackets, with their signs. -/
def signedFaces (faces : List Int64) : List Char :=
  '[' :: ([',', ' '].intercalate (faces.map fun face => Decimal.signed face.toInt) ++ [']'])

/-- The text of an entry. -/
def text : Event → List Char
  | .consumed slot read => slot.name.toList ++ " consumed ".toList ++ Quoted.quote read
  | .rejected source error =>
      "rejected dice expression ".toList ++ Quoted.quote source ++ ": ".toList
        ++ error.message.toList
  | .parsed source terms =>
      "parsed ".toList ++ Quoted.quote source ++ " into ".toList ++ Decimal.natural terms
        ++ " terms".toList
  | .thrown dice faces =>
      "dice roll result for ".toList ++ dice.text ++ " is ".toList ++ signedFaces faces
  | .rolled expression roll =>
      "rolled ".toList ++ expression.text ++ ": ".toList ++ roll.equation

/-- The text of an entry as a string. -/
def message (e : Event) : String := String.ofList e.text

end Event

/-! ## §2. Journals. -/

/-- The events of reading a text: every step of its scan, and the outcome. -/
def Expression.parseJournal (source : List Char) : List Event :=
  let scan := Scan.ofText source
  let outcome := match ofScan source scan with
    | .error error => Event.rejected source error
    | .ok e => Event.parsed source e.length
  scan.steps.map (fun step => Event.consumed step.slot step.text) ++ [outcome]

/-- The events of a roll: every group of dice, and the whole. -/
def Roll.journal (e : Expression) (r : Roll) : List Event :=
  let thrown := r.parts.filterMap fun p =>
    match p.term with
    | .dice d => some (Event.thrown d p.faces)
    | .constant _ => none
  thrown ++ [Event.rolled e r]

end TabletopDice
