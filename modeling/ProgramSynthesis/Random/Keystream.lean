import ProgramSynthesis.Random.WordStream

/-!
# The seeded keystream

A seed of one word determines a stream: a congruential generator expands the seed to a
256-bit key, and the ChaCha block function with twelve rounds turns the key and a block number
into sixteen 32-bit words. Two of them, the first being the low half, make one word of the
stream. Block numbers have 64 bits; the stream ends where they do.
-/

namespace ProgramSynthesis

namespace Keystream

/-- Rotate a word to the right. -/
def rotateRight (word amount : UInt32) : UInt32 :=
  (word >>> amount) ||| (word <<< (32 - amount))

/-- Rotate a word to the left. -/
def rotateLeft (word amount : UInt32) : UInt32 :=
  (word <<< amount) ||| (word >>> (32 - amount))

/-- The next state of the seed expansion. -/
def advance (state : UInt64) : UInt64 := state * 6364136223846793005 + 11634580027462260723

/-- The key word of a state of the seed expansion: high bits are folded into low ones and
rotated by the five highest bits. -/
def keyWord (state : UInt64) : UInt32 :=
  rotateRight (((state >>> 18) ^^^ state) >>> 27).toUInt32 (state >>> 59).toUInt32

/-- The key words of a number of states after a state. -/
def expand : Nat → UInt64 → List UInt32
  | 0, _ => []
  | count + 1, state => keyWord (advance state) :: expand count (advance state)

/-- The eight key words of a seed. -/
def key (seed : UInt64) : List UInt32 := expand 8 seed

/-- The state of the block function. -/
abbrev Block := Vector UInt32 16

/-- Add the second of two words to the first, and mix the sum into a third one, rotated. -/
def mix (block : Block) (target source mixed : Fin 16) (amount : UInt32) : Block :=
  let sum := block[target] + block[source]
  let block := block.set target sum
  block.set mixed (rotateLeft (block[mixed] ^^^ sum) amount)

/-- The quarter round on four words of a block. -/
def quarterRound (block : Block) (lanes : Fin 16 × Fin 16 × Fin 16 × Fin 16) : Block :=
  let (a, b, c, d) := lanes
  let block := mix block a b d 16
  let block := mix block c d b 12
  let block := mix block a b d 8
  mix block c d b 7

/-- The columns, then the diagonals, of a block. -/
def lanes : List (Fin 16 × Fin 16 × Fin 16 × Fin 16) :=
  [(0, 4, 8, 12), (1, 5, 9, 13), (2, 6, 10, 14), (3, 7, 11, 15),
    (0, 5, 10, 15), (1, 6, 11, 12), (2, 7, 8, 13), (3, 4, 9, 14)]

/-- One round on the columns and one on the diagonals. -/
def doubleRound (block : Block) : Block := lanes.foldl quarterRound block

/-- The four fixed words that every block starts with. -/
def fixedWords : List UInt32 := [0x61707865, 0x3320646e, 0x79622d32, 0x6b206574]

/-- The block before its rounds: four fixed words, the key, the block number, and two zero
words. -/
def initial (key : List UInt32) (number : UInt64) : Block :=
  let words := fixedWords ++ key ++ [number.toUInt32, (number >>> 32).toUInt32, 0, 0]
  .ofFn fun lane => words.getD lane 0

/-- The block of a number: six double rounds, added to the block before them. -/
def block (key : List UInt32) (number : UInt64) : Block :=
  let start := initial key number
  (Nat.repeat doubleRound 6 start).zipWith (· + ·) start

/-- The word of the stream at a position. -/
def word (key : List UInt32) (position : Nat) : UInt64 :=
  let words := block key (.ofNat (position / 8))
  let lane := 2 * (position % 8)
  (words.toList.getD lane 0).toUInt64 ||| ((words.toList.getD (lane + 1) 0).toUInt64 <<< 32)

/-- The number of words in all blocks. -/
def length : Nat := 8 * UInt64.size

end Keystream

/-- The stream of a seed. -/
def WordStream.ofSeed (seed : UInt64) : WordStream :=
  let key := Keystream.key seed
  { word := fun position =>
      if position < Keystream.length then Keystream.word key position else 0
    length := Keystream.length
    zero_of_length_le := by
      intro position beyond
      exact if_neg (Nat.not_lt.mpr beyond) }

end ProgramSynthesis
