/-
  TabletopDice.Random.Source
  ──────────────────────────────────────
  **WHERE RANDOM WORDS COME FROM.**

  Dice ask a source for one 32-bit word at a time; a source answers with a
  word and with the source that is left.  `Tap` counts the words that were
  drawn through it, and changes nothing else.
-/

namespace TabletopDice

/-- A source of random 32-bit words. -/
class WordSource (σ : Type) where
  /-- The next word, and the source after it. -/
  next : σ → UInt32 × σ

/-- A source together with the number of words drawn from it. -/
structure Tap (σ : Type) where
  source : σ
  drawn : Nat
deriving DecidableEq

namespace Tap

/-- A tap from which nothing has been drawn. -/
def fresh {σ : Type} (source : σ) : Tap σ := ⟨source, 0⟩

instance {σ : Type} [WordSource σ] : WordSource (Tap σ) where
  next tap :=
    let (word, source) := WordSource.next tap.source
    (word, ⟨source, tap.drawn + 1⟩)

end Tap

end TabletopDice
