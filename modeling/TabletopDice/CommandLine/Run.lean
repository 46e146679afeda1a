/-
  TabletopDice.CommandLine.Run
  ──────────────────────────────────────
  **WHAT THE PROGRAM DOES WITH ITS ARGUMENTS.**

  What settles the matter among the arguments comes first, help, the version or
  a misuse, then a text that is no expression.  For an expression
  the program prints its bounds, or a line for each roll; all the rolls of a
  run draw from one source, that of the given seed or else of a fresh one.
-/
import TabletopDice.CommandLine.Options
import TabletopDice.Expression.Parse
import TabletopDice.Random.ChaCha
import TabletopDice.Roll.Display

namespace TabletopDice.CommandLine

/-! ## §1. Endings. -/

/-- How a run of the program ends. -/
inductive Ending
  | printed (text : List Char)
  | rejected (error : ParseError)
  | misused (error : UsageError)
deriving DecidableEq

namespace Ending

/-- The exit status. -/
def status : Ending → UInt32
  | .printed _ => 0
  | .rejected _ => 1
  | .misused _ => 2

/-- What goes to the standard output. -/
def output : Ending → String
  | .printed text => String.ofList text
  | .rejected _ => ""
  | .misused _ => ""

/-- What the program itself writes to the error output.  About a misuse the
option parser it is built on has the word, and those texts are left out. -/
def errors : Ending → String
  | .printed _ => ""
  | .rejected error => error.message ++ "\n"
  | .misused _ => ""

end Ending

/-! ## §2. Runs. -/

/-- The name and the version of the program. -/
def versionLine : List Char := "dice-expression 0.1.0\n".toList

/-- What the program is for and how it is asked, line by line. -/
def helpLines : List String :=
  ["Parse simple dice notation like `3d6 + 2d4 - 5` and roll it or compute its bounds.",
    "",
    "Usage: dice-expression [OPTIONS] <EXPRESSION>",
    "",
    "Arguments:",
    "  <EXPRESSION>  The dice expression to roll",
    "",
    "Options:",
    "  -n, --times <TIMES>  How many times to roll the expression [default: 1]",
    "  -s, --seed <SEED>    Seed the rng to get the same rolls every time",
    "  -b, --bounds         Print the lowest and highest possible totals instead of rolling",
    "  -h, --help           Print help",
    "  -V, --version        Print version"]

/-- What is printed for help. -/
def helpText : List Char := helpLines.flatMap fun line => line.toList ++ ['\n']

/-- The line that shows the bounds. -/
def boundsLine (e : Expression) : List Char :=
  "min: ".toList ++ Decimal.signed e.min.toInt ++ ", max: ".toList
    ++ Decimal.signed e.max.toInt ++ ['\n']

/-- The line that shows a roll. -/
def rollLine (r : Roll) : List Char := r.equation ++ ['\n']

/-- What is printed for an expression. -/
def report (patience : Nat) (freshSeed : UInt64) (o : Options) (e : Expression) :
    Option (List Char) :=
  if o.bounds then some (boundsLine e)
  else
    let source := SeededSource.ofSeed (o.seed.getD freshSeed)
    match (e.rollTimes patience o.times.toNat : Roller SeededSource (List Roll)) source with
    | none => none
    | some (rolls, _) => some (rolls.flatMap rollLine)

/-- **Run the program.**  There is no ending only if the dice run out of
patience. -/
def run (patience : Nat) (freshSeed : UInt64) (arguments : List String) : Option Ending :=
  match Options.ofArguments arguments with
  | .error .help => some (.printed helpText)
  | .error .version => some (.printed versionLine)
  | .error (.misuse error) => some (.misused error)
  | .ok options =>
      match Expression.parse options.source with
      | .error error => some (.rejected error)
      | .ok e => (report patience freshSeed options e).map .printed

end TabletopDice.CommandLine
