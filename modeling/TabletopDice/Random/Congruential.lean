/-
  TabletopDice.Random.Congruential
  ──────────────────────────────────────
  **A LISTED SOURCE: given words first, then a congruential sequence without
  end.**

  While words are listed they are handed out in order.  After the last one a
  64-bit state is multiplied and increased for every word, wrapping around,
  and the word is its upper half.
-/
import TabletopDice.Random.Source

namespace TabletopDice

namespace Congruential

/-- The factor of the sequence. -/
def multiplier : UInt64 := 6364136223846793005

/-- The increment of the sequence. -/
def increment : UInt64 := 1442695040888963407

/-- The state after a state. -/
def step (state : UInt64) : UInt64 := state * multiplier + increment

/-- The word that a state stands for: its upper half. -/
def word (state : UInt64) : UInt32 := (state >>> 32).toUInt32

end Congruential

/-- Words still to be handed out, and the state to go on with after them. -/
structure ListedSource where
  words : List UInt32
  fill : UInt64
deriving DecidableEq

namespace ListedSource

/-- The next word: from the list, or from the sequence once the list is used
up. -/
def next (s : ListedSource) : UInt32 × ListedSource :=
  match s.words with
  | w :: words => (w, { s with words := words })
  | [] =>
      let state := Congruential.step s.fill
      (Congruential.word state, { s with fill := state })

instance : WordSource ListedSource where
  next := next

end ListedSource

end TabletopDice
