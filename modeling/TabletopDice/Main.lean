/-
  TabletopDice.Main
  ──────────────────────────────────────
  The program: its arguments in, its two outputs and its exit status out.
-/
import TabletopDice.CommandLine.Run

open TabletopDice

/-- Run the program with a seed of its own for runs that are given none. -/
def main (arguments : List String) : IO UInt32 := do
  let freshSeed ← IO.rand 0 (UInt64.size - 1)
  match CommandLine.run Die.amplePatience (UInt64.ofNat freshSeed) arguments with
  | none =>
      IO.eprintln "error: the dice would not settle"
      return 3
  | some ending =>
      IO.print ending.output
      IO.eprint ending.errors
      return ending.status
