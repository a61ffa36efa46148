import RideDispatch.Random.Block

/-!
# Streams of random numbers

A `Stream` is the sequence of the words of all blocks of a key. `Stream.ofSeed` spreads a seed over
the key, and `Stream.below` draws a number below a bound, each with the same chance.
-/

namespace RideDispatch.Random

/-- A position in the sequence of words of a key. -/
structure Stream where
  key : Key
  /-- The number of the next block. -/
  counter : UInt64
  block : Block
  /-- The number of words of the block that have been drawn. -/
  drawn : Nat

namespace Stream

/-- The next state of the generator that spreads a seed. -/
def spread (state : UInt64) : UInt64 := state * 6364136223846793005 + 11634580027462260723

/-- The word that a state of that generator gives. -/
def spreadWord (state : UInt64) : UInt32 :=
  let shifted : UInt32 := (((state >>> 18) ^^^ state) >>> 27).toUInt32
  let turn : UInt32 := (state >>> 59).toUInt32
  (shifted >>> turn) ||| (shifted <<< ((32 - turn) % 32))

/-- The key of a seed. -/
def keyOfSeed (seed : UInt64) : Key :=
  Vector.ofFn fun i => spreadWord (Nat.repeat spread (i.val + 1) seed)

/-- The beginning of the stream of a seed. -/
def ofSeed (seed : UInt64) : Stream :=
  let key := keyOfSeed seed
  ⟨key, 1, Block.ofCounter key 0, 0⟩

/-- Draws a word of 32 bits. -/
def word (s : Stream) : UInt32 × Stream :=
  if h : s.drawn < 16 then (s.block[s.drawn], { s with drawn := s.drawn + 1 })
  else
    let block := Block.ofCounter s.key s.counter
    (block[0], { s with counter := s.counter + 1, block := block, drawn := 1 })

/-- Draws a word of 64 bits, the lower half first. -/
def doubleWord (s : Stream) : UInt64 × Stream :=
  let (low, s) := s.word
  let (high, s) := s.word
  ((high.toUInt64 <<< 32) ||| low.toUInt64, s)

/-- The number of draws after which no draw is rejected any more. -/
def maxDraws : Nat := 1000

/-- Draws until the lower half of the product with the bound lies in the zone, and gives the upper
half. -/
def draw (bound zone : Nat) : Nat → Stream → Nat × Stream
  | 0, s =>
    let (v, s) := s.doubleWord
    (v.toNat * bound / UInt64.size, s)
  | tries + 1, s =>
    let (v, s) := s.doubleWord
    let product := v.toNat * bound
    if product % UInt64.size ≤ zone then (product / UInt64.size, s) else draw bound zone tries s

/-- Draws a number below a bound of at most 64 bits. The zone is as large as the greatest multiple
of the bound by a power of two, so that all results have the same chance. -/
def below (s : Stream) (bound : Nat) : Nat × Stream :=
  let zone := (bound <<< (63 - bound.log2)) - 1
  draw bound zone maxDraws s

/-- A number that is drawn below a bound is less than the bound. -/
theorem draw_lt {bound : Nat} (h : 0 < bound) (zone tries : Nat) (s : Stream) :
    (draw bound zone tries s).1 < bound := by
  have key (v : UInt64) : v.toNat * bound / UInt64.size < bound := by
    rw [Nat.div_lt_iff_lt_mul (by decide), Nat.mul_comm bound]
    exact Nat.mul_lt_mul_of_pos_right v.toNat_lt h
  induction tries generalizing s with
  | zero => exact key _
  | succ n ih =>
    simp only [draw]
    split
    next => exact key _
    next => exact ih _

theorem below_lt {bound : Nat} (h : 0 < bound) (s : Stream) : (s.below bound).1 < bound :=
  draw_lt h _ _ s

end Stream

end RideDispatch.Random
