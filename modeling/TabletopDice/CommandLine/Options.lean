/-
  TabletopDice.CommandLine.Options
  ──────────────────────────────────────
  **THE OPTIONS OF THE PROGRAM, read from its arguments one after the other.**

  One operand, the text of an expression, and five options: `-n`/`--times` and
  `-s`/`--seed` take a value, `-b`/`--bounds`, `-h`/`--help` and
  `-V`/`--version` do not.  A value stands in the argument of its option
  (`-n3`, `-n=3`, `--times=3`) or is the next argument, and then must not start
  with a dash.  Short options may be joined.  After `--` every argument is an
  operand.

  The first thing that settles the matter wins: asking for help or for the
  version ends the reading, and so does the first misuse.  What is missing at
  the end is misuse too.
-/
import TabletopDice.Text.Numeral

namespace TabletopDice.CommandLine

/-! ## §1. Options. -/

/-- What the program is asked to do. -/
structure Options where
  source : String
  times : UInt32
  seed : Option UInt64
  bounds : Bool
deriving DecidableEq

/-- The options that take a value. -/
inductive Valued
  | times
  | seed
deriving DecidableEq

/-- The ways to misuse the program. -/
inductive UsageError
  | unknownOption
  /-- A value is given to an option that takes none. -/
  | unexpectedValue
  | missingValue
  | unreadableValue
  | repeatedOption
  | unexpectedOperand
  | missingOperand
deriving DecidableEq

/-- Why reading the arguments ended before their end. -/
inductive Stop
  | help
  | version
  | misuse (error : UsageError)
deriving DecidableEq

/-! ## §2. Numbers in values. -/

/-- Digits, at least one, of a value up to a limit.  Leading zeros are
allowed. -/
def digits? (limit : Nat) (run : List Char) : Option Nat :=
  if run ≠ [] ∧ run.all Char.isDigit then Digits.within? limit run else none

/-- A number of rolls: 32 bits, after an optional sign.  A minus sign leaves
only zero within reach. -/
def times? : List Char → Option UInt32
  | '-' :: run => (digits? 0 run).map UInt32.ofNat
  | '+' :: run => (digits? (UInt32.size - 1) run).map UInt32.ofNat
  | run => (digits? (UInt32.size - 1) run).map UInt32.ofNat

/-- A seed: 64 bits, after an optional plus sign. -/
def seed? : List Char → Option UInt64
  | '+' :: run => (digits? (UInt64.size - 1) run).map UInt64.ofNat
  | run => (digits? (UInt64.size - 1) run).map UInt64.ofNat

/-! ## §3. One argument after the other. -/

/-- What has been read so far. -/
structure Draft where
  source : Option String
  times : Option UInt32
  seed : Option UInt64
  bounds : Bool
  /-- The option whose value is the next argument. -/
  awaiting : Option Valued
  /-- Whether `--` has been met. -/
  operandsOnly : Bool
deriving DecidableEq

namespace Draft

/-- Nothing has been read. -/
def blank : Draft := ⟨none, none, none, false, none, false⟩

/-- Stop for a misuse. -/
def refuse (error : UsageError) : Except Stop Draft := .error (.misuse error)

/-- Take the operand, of which there is one. -/
def operand (d : Draft) (argument : String) : Except Stop Draft :=
  match d.source with
  | none => .ok { d with source := some argument }
  | some _ => refuse .unexpectedOperand

/-- Take the value of an option. -/
def value (d : Draft) (option : Valued) (text : List Char) : Except Stop Draft :=
  let d := { d with awaiting := none }
  match option with
  | .times =>
      if d.times.isSome then refuse .repeatedOption
      else match times? text with
        | none => refuse .unreadableValue
        | some n => .ok { d with times := some n }
  | .seed =>
      if d.seed.isSome then refuse .repeatedOption
      else match seed? text with
        | none => refuse .unreadableValue
        | some n => .ok { d with seed := some n }

/-- Take the flag that asks for the bounds. -/
def askBounds (d : Draft) : Except Stop Draft :=
  if d.bounds then refuse .repeatedOption else .ok { d with bounds := true }

/-- Take a short option with a value: the value is what is left of the argument,
after an equals sign if there is one, or else the next argument. -/
def shortValue (d : Draft) (option : Valued) : List Char → Except Stop Draft
  | [] => .ok { d with awaiting := some option }
  | '=' :: text => d.value option text
  | text => d.value option text

/-- Take short options joined in one argument. -/
def short (d : Draft) : List Char → Except Stop Draft
  | [] => .ok d
  -- Help and the version are settled at once, whatever is joined to them.
  | 'h' :: _ => .error .help
  | 'V' :: _ => .error .version
  | 'b' :: more => do (← d.askBounds).short more
  | 'n' :: text => d.shortValue .times text
  | 's' :: text => d.shortValue .seed text
  | _ => refuse .unknownOption

/-- Take a long option with a value. -/
def longValue (d : Draft) (option : Valued) : Option (List Char) → Except Stop Draft
  | none => .ok { d with awaiting := some option }
  | some text => d.value option text

/-- Take a long option that takes no value. -/
def longFlag (value : Option (List Char)) (taken : Except Stop Draft) : Except Stop Draft :=
  if value.isSome then refuse .unexpectedValue else taken

/-- Take a long option: its name, and what stands after an equals sign. -/
def long (d : Draft) (name : String) (value : Option (List Char)) : Except Stop Draft :=
  match name with
  | "times" => d.longValue .times value
  | "seed" => d.longValue .seed value
  | "bounds" => longFlag value d.askBounds
  | "help" => longFlag value (.error .help)
  | "version" => longFlag value (.error .version)
  | _ => refuse .unknownOption

/-- What stands after the first equals sign of a text, if there is one. -/
def afterEquals (text : List Char) : Option (List Char) :=
  match text.dropWhile (· ≠ '=') with
  | [] => none
  | _ :: value => some value

/-- Take an argument that starts with a dash, and is more than that. -/
def dashed (d : Draft) (afterDash : List Char) : Except Stop Draft :=
  match d.awaiting with
  -- A value that is an argument of its own never starts with a dash.
  | some _ => refuse .missingValue
  | none =>
      match afterDash with
      | ['-'] => .ok { d with operandsOnly := true }
      | '-' :: text => d.long (String.ofList (text.takeWhile (· ≠ '='))) (afterEquals text)
      | text => d.short text

/-- Take one argument.  A dash alone is a plain word. -/
def take (d : Draft) (argument : String) : Except Stop Draft :=
  if d.operandsOnly then d.operand argument
  else
    match argument.toList with
    | '-' :: c :: text => d.dashed (c :: text)
    | text =>
        match d.awaiting with
        | some option => d.value option text
        | none => d.operand argument

/-- The options once all arguments are taken. -/
def finish (d : Draft) : Except Stop Options :=
  match d.awaiting, d.source with
  | some _, _ => .error (.misuse .missingValue)
  | none, none => .error (.misuse .missingOperand)
  | none, some source => .ok ⟨source, d.times.getD 1, d.seed, d.bounds⟩

end Draft

/-- **Read the arguments from left to right.** -/
def Options.ofArguments (arguments : List String) : Except Stop Options := do
  (← arguments.foldlM Draft.take Draft.blank).finish

end TabletopDice.CommandLine
