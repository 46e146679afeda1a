/-
  TabletopDice.Random.ChaCha
  ──────────────────────────────────────
  **A SEEDED SOURCE: the blocks of the ChaCha stream with twelve rounds.**

  The sixteen words of a block stand in four rows of four.  A round works on
  the four columns at once, so it is written on whole rows; the diagonals are
  columns too once each row has been turned by its number.  The stream is what
  is left of one block, and then the blocks of an advancing counter.

  A 64-bit seed is stretched to the 256-bit key by a congruential sequence
  whose states are mixed before they are used.
-/
import TabletopDice.Random.Source

namespace TabletopDice

/-! ## §1. Rows of four words. -/

/-- Rotate a word to the left by `amount` bits, `0 < amount < 32`. -/
def rotateLeft (w amount : UInt32) : UInt32 := (w <<< amount) ||| (w >>> (32 - amount))

/-- Rotate a word to the right by `amount` bits.  Shifts take their amount
modulo 32, so an amount of zero leaves the word as it is. -/
def rotateRight (w amount : UInt32) : UInt32 := (w >>> amount) ||| (w <<< (32 - amount))

/-- Four words, one in each column. -/
structure Row where
  w0 : UInt32
  w1 : UInt32
  w2 : UInt32
  w3 : UInt32
deriving DecidableEq

namespace Row

/-- Work on the words of one row. -/
def map (f : UInt32 → UInt32) (r : Row) : Row := ⟨f r.w0, f r.w1, f r.w2, f r.w3⟩

/-- Work on two rows column by column. -/
def zip (f : UInt32 → UInt32 → UInt32) (r s : Row) : Row :=
  ⟨f r.w0 s.w0, f r.w1 s.w1, f r.w2 s.w2, f r.w3 s.w3⟩

/-- The row turned by one place to the left. -/
def turn (r : Row) : Row := ⟨r.w1, r.w2, r.w3, r.w0⟩

/-- The words from left to right. -/
def toList (r : Row) : List UInt32 := [r.w0, r.w1, r.w2, r.w3]

end Row

/-! ## §2. Blocks and rounds. -/

/-- Sixteen words in four rows. -/
structure Grid where
  a : Row
  b : Row
  c : Row
  d : Row
deriving DecidableEq

namespace Grid

/-- The step that a round repeats four times: a row takes in a second one, and
a third is mixed with the sum and rotated. -/
def mix (amount : UInt32) (into addend other : Row) : Row × Row :=
  let sum := into.zip (· + ·) addend
  (sum, (other.zip (· ^^^ ·) sum).map (rotateLeft · amount))

/-- A round on the four columns. -/
def columnRound (g : Grid) : Grid :=
  -- Each line works on the rows as the line before left them.
  let (a, d) := mix 16 g.a g.b g.d
  let (c, b) := mix 12 g.c d g.b
  let (a, d) := mix 8 a b d
  let (c, b) := mix 7 c d b
  ⟨a, b, c, d⟩

/-- Turn each row by its number, so that the diagonals become columns. -/
def slant (g : Grid) : Grid := ⟨g.a, g.b.turn, g.c.turn.turn, g.d.turn.turn.turn⟩

/-- Turn the rows back. -/
def straighten (g : Grid) : Grid := ⟨g.a, g.b.turn.turn.turn, g.c.turn.turn, g.d.turn⟩

theorem straighten_slant (g : Grid) : g.slant.straighten = g := rfl

/-- A round on the columns and a round on the diagonals. -/
def doubleRound (g : Grid) : Grid := g.columnRound.slant.columnRound.straighten

/-- The given number of double rounds. -/
def rounds : Nat → Grid → Grid
  | 0, g => g
  | n + 1, g => rounds n g.doubleRound

/-- Word by word sum of two blocks. -/
def add (g h : Grid) : Grid :=
  ⟨g.a.zip (· + ·) h.a, g.b.zip (· + ·) h.b, g.c.zip (· + ·) h.c, g.d.zip (· + ·) h.d⟩

/-- The words of a block, row by row. -/
def toList (g : Grid) : List UInt32 :=
  g.a.toList ++ g.b.toList ++ g.c.toList ++ g.d.toList

end Grid

/-! ## §3. The stream. -/

namespace ChaCha

/-- The first row of every block. -/
def constants : Row := ⟨0x61707865, 0x3320646e, 0x79622d32, 0x6b206574⟩

/-- A key of eight words. -/
structure Key where
  low : Row
  high : Row
deriving DecidableEq

/-- The block that is mixed for a counter.  The stream number is zero. -/
def initial (key : Key) (counter : UInt64) : Grid :=
  ⟨constants, key.low, key.high, ⟨counter.toUInt32, (counter >>> 32).toUInt32, 0, 0⟩⟩

/-- The output block of a counter: six double rounds, added to where they
started. -/
def block (key : Key) (counter : UInt64) : Grid :=
  (Grid.rounds 6 (initial key counter)).add (initial key counter)

/-! ## §4. Seeds. -/

/-- The state after a state of the sequence that stretches a seed. -/
def seedStep (state : UInt64) : UInt64 := state * 6364136223846793005 + 11634580027462260723

/-- The key word of a state: its bits folded down to 32, then rotated by its
uppermost five. -/
def seedWord (state : UInt64) : UInt32 :=
  rotateRight (((state >>> 18) ^^^ state) >>> 27).toUInt32 (state >>> 59).toUInt32

/-- Four key words, and the state after them. -/
def seedRow (state : UInt64) : Row × UInt64 :=
  let s0 := seedStep state
  let s1 := seedStep s0
  let s2 := seedStep s1
  let s3 := seedStep s2
  (⟨seedWord s0, seedWord s1, seedWord s2, seedWord s3⟩, s3)

/-- The key that a seed is stretched to. -/
def keyOfSeed (seed : UInt64) : Key :=
  let (low, state) := seedRow seed
  ⟨low, (seedRow state).1⟩

end ChaCha

/-- What is left of the current block, and where the stream goes on. -/
structure SeededSource where
  key : ChaCha.Key
  counter : UInt64
  pending : List UInt32
deriving DecidableEq

namespace SeededSource

/-- The source of a seed, before its first word. -/
def ofSeed (seed : UInt64) : SeededSource := ⟨ChaCha.keyOfSeed seed, 0, []⟩

/-- The next word: the rest of the block first, then the next block. -/
def next (s : SeededSource) : UInt32 × SeededSource :=
  match s.pending with
  | w :: pending => (w, { s with pending := pending })
  | [] =>
      -- The block is used up: its first word is handed out, fifteen are pending.
      let out := ChaCha.block s.key s.counter
      (out.a.w0, { s with counter := s.counter + 1, pending := out.toList.tail })

instance : WordSource SeededSource where
  next := next

end SeededSource

end TabletopDice
