/-
  TabletopDice.Session.Basic
  ──────────────────────────────────────
  **A SITTING AT THE TABLE: named expressions, rolls and pieces over one shared
  source.**

  A command reads from the tables and may store one value; commands that roll
  draw from the shared source.  A command that cannot be carried out — a text
  that is no expression, a name or a place that is not there — says so and
  leaves the session as it was.
-/
import TabletopDice.Expression.Display
import TabletopDice.Expression.Parse
import TabletopDice.Roll.Basic
import TabletopDice.Session.Table

namespace TabletopDice

/-! ## §1. Pieces. -/

/-- A group of dice, a constant or a term, held by itself. -/
inductive Piece
  | dice (d : Dice)
  | constant (c : Constant)
  | term (t : Term)
deriving DecidableEq

namespace Piece

/-- A piece as a term. -/
def toTerm : Piece → Term
  | .dice d => .dice d
  | .constant c => .constant c
  | .term t => t

/-- Make a piece negative; it stays of its kind. -/
def negate : Piece → Piece
  | .dice d => .dice d.negate
  | .constant c => .constant c.negate
  | .term t => .term t.negate

/-- A piece of any kind is negated as the term that it is. -/
theorem toTerm_negate (p : Piece) : p.negate.toTerm = p.toTerm.negate := by
  cases p <;> rfl

end Piece

/-! ## §2. Sessions, commands and answers. -/

/-- The named values and the source they share. -/
structure Session (σ : Type) where
  expressions : Table Expression
  rolls : Table Roll
  pieces : Table Piece
  source : Tap σ

/-- What can be asked of a session. -/
inductive Command
  | parse (text into : String)
  | recall (of : String)
  | reparse (of into : String)
  | roll (of into : String)
  | rollText (text into : String)
  | rollTotal (of : String)
  | compare (a b : String)
  | compareRolls (a b : String)
  | makeDice (count sides : UInt32) (into : String)
  | makeConstant (value : UInt32) (into : String)
  | makeTerm (of into : String)
  | pick (of : String) (index : Nat) (into : String)
  | negate (of : String)
  | inspect (of : String)
  | compareTerms (a b : String)
  | rollPiece (of : String)
deriving DecidableEq

/-- What a session answers.  Rolls come with the number of words drawn so
far. -/
inductive Answer
  | expression (e : Expression)
  | reparsed (text : String) (equal : Bool)
  | rolled (r : Roll) (drawn : Nat)
  | total (value : Int64) (drawn : Nat)
  | equal (yes : Bool)
  | piece (p : Piece)
  | part (p : Part) (drawn : Nat)
  | rejected (error : ParseError)
  | missing
deriving DecidableEq

/-- The answers that report a failure. -/
def Answer.isFailure : Answer → Bool
  | .rejected _ => true
  | .missing => true
  | _ => false

/-! ## §3. Carrying out commands. -/

namespace Session

variable {σ : Type}

/-- A session without stored values, over a source that nothing was drawn
from. -/
def fresh (source : σ) : Session σ := ⟨.empty, .empty, .empty, .fresh source⟩

/-- What a command comes to: an answer and the session after it, or nothing if
the dice ran out of patience. -/
abbrev Reply (σ : Type) := Option (Answer × Session σ)

/-- Leave the session as it is. -/
def keep (s : Session σ) (a : Answer) : Reply σ := some (a, s)

/-- Store an expression. -/
def storeExpression (s : Session σ) (into : String) (e : Expression) (a : Answer) : Reply σ :=
  some (a, { s with expressions := s.expressions.put into e })

/-- Store a piece, and answer with it. -/
def storePiece (s : Session σ) (into : String) (p : Piece) : Reply σ :=
  some (.piece p, { s with pieces := s.pieces.put into p })

/-- Go on with the value under a name, if there is one. -/
def reading {α : Type} (s : Session σ) (table : Table α) (name : String)
    (go : α → Reply σ) : Reply σ :=
  match table.get? name with
  | none => s.keep .missing
  | some value => go value

/-- Go on with the expression of a text, if it is one. -/
def parsing (s : Session σ) (text : String) (go : Expression → Reply σ) : Reply σ :=
  match Expression.parse text with
  | .error error => s.keep (.rejected error)
  | .ok e => go e

/-- Roll with the shared source, and go on with what was rolled. -/
def rolling {α : Type} (s : Session σ) (roller : Roller (Tap σ) α)
    (go : Session σ → α → Reply σ) : Reply σ :=
  match roller s.source with
  | none => none
  | some (outcome, source) => go { s with source := source } outcome

variable [WordSource σ]

/-- Roll an expression and store the roll. -/
def rollInto (patience : Nat) (s : Session σ) (e : Expression) (into : String) : Reply σ :=
  s.rolling (e.roll patience) fun s r =>
    some (.rolled r s.source.drawn, { s with rolls := s.rolls.put into r })

/-- **Carry out one command.** -/
def step (patience : Nat) (c : Command) (s : Session σ) : Reply σ :=
  match c with
  | .parse text into => s.parsing text fun e => s.storeExpression into e (.expression e)
  | .recall of => s.reading s.expressions of fun e => s.keep (.expression e)
  | .reparse of into =>
      s.reading s.expressions of fun e =>
        -- What is stored is what was read, equal to the first or not.
        s.parsing e.display fun again =>
          s.storeExpression into again (.reparsed e.display (again = e))
  | .roll of into => s.reading s.expressions of fun e => s.rollInto patience e into
  | .rollText text into => s.parsing text fun e => s.rollInto patience e into
  | .rollTotal of =>
      s.reading s.expressions of fun e =>
        s.rolling (e.roll patience) fun s r => s.keep (.total r.total s.source.drawn)
  | .compare a b =>
      s.reading s.expressions a fun x =>
        s.reading s.expressions b fun y => s.keep (.equal (x = y))
  | .compareRolls a b =>
      s.reading s.rolls a fun x => s.reading s.rolls b fun y => s.keep (.equal (x = y))
  | .makeDice count sides into => s.storePiece into (.dice (Dice.clamped count sides))
  | .makeConstant value into => s.storePiece into (.constant (.ofUInt32 value))
  | .makeTerm of into =>
      s.reading s.pieces of fun p => s.storePiece into (.term p.toTerm)
  | .pick of index into =>
      s.reading s.expressions of fun e =>
        match e.terms[index]? with
        | none => s.keep .missing
        | some t => s.storePiece into (.term t)
  | .negate of => s.reading s.pieces of fun p => s.storePiece of p.negate
  | .inspect of => s.reading s.pieces of fun p => s.keep (.piece p)
  | .compareTerms a b =>
      s.reading s.pieces a fun x =>
        s.reading s.pieces b fun y => s.keep (.equal (x.toTerm = y.toTerm))
  | .rollPiece of =>
      s.reading s.pieces of fun p =>
        s.rolling (p.toTerm.roll patience) fun s part => s.keep (.part part s.source.drawn)

/-- **Carry out commands in order**, each on the session that the one before
it left. -/
def run (patience : Nat) (commands : List Command) : StateT (Session σ) Option (List Answer) :=
  commands.mapM (step patience)

end Session

end TabletopDice
