/-
  TabletopDice.Random.Generator
  ──────────────────────────────────────
  **ONE TYPE FOR BOTH KINDS OF SOURCE**, so that a program can choose between
  them while it runs.
-/
import TabletopDice.Random.ChaCha
import TabletopDice.Random.Congruential

namespace TabletopDice

/-- A source of either kind. -/
inductive Generator
  | listed (s : ListedSource)
  | seeded (s : SeededSource)
deriving DecidableEq

namespace Generator

/-- The generator of given words, and a sequence to go on with. -/
def ofWords (words : List UInt32) (fill : UInt64) : Generator := .listed ⟨words, fill⟩

/-- The generator of a seed. -/
def ofSeed (seed : UInt64) : Generator := .seeded (SeededSource.ofSeed seed)

/-- The next word, from whichever source this is. -/
def next : Generator → UInt32 × Generator
  | .listed s =>
      let (word, s) := s.next
      (word, .listed s)
  | .seeded s =>
      let (word, s) := s.next
      (word, .seeded s)

instance : WordSource Generator where
  next := next

end Generator

end TabletopDice
