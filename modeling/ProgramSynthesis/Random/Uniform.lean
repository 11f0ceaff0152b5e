import ProgramSynthesis.Fault
import ProgramSynthesis.Random.WordStream

/-!
# Uniform integers

A word is spread over a range by multiplication: the high half of the 128-bit product of the
word and the size of the range is an offset below that size. A word is accepted when the low
half of the product lies below the size shifted until its highest bit is set. That leaves the
same number of accepted words for every offset, a power of two, so all offsets are equally
likely. Zero is always accepted, so a draw from a stream that ends in zeros ends.
-/

namespace ProgramSynthesis

/-- The number of integers between two bounds, both included, modulo the word size: the full
range counts as zero. -/
def rangeSize (low high : Int64) : UInt64 := (high - low + 1).toUInt64

/-- The largest low half that is accepted: the size of the range, shifted until its highest
bit is set, less one. -/
def acceptanceZone (size : UInt64) : UInt64 := (size <<< (63 - size.log2)) - 1

/-- Whether a word is accepted for a range of a size. -/
def accepts (size word : UInt64) : Bool := word * size ≤ acceptanceZone size

/-- The offset that a word selects in a range of a size: the high half of their product. -/
def offset (size word : UInt64) : UInt64 :=
  .ofNat (word.toNat * size.toNat / UInt64.size)

/-- The word zero is accepted for every range. -/
theorem accepts_zero (size : UInt64) : accepts size 0 = true := by
  simp [accepts]

namespace WordStream

/-- The first accepted word from a position on, and the position after it. -/
def accepted (stream : WordStream) (size : UInt64) (position : Nat) : UInt64 × Nat :=
  if suits : accepts size (stream.word position) then
    (stream.word position, position + 1)
  else
    have : position < stream.length := by
      rcases Nat.lt_or_ge position stream.length with inside | beyond
      · exact inside
      · rw [stream.zero_of_length_le position beyond, accepts_zero] at suits
        exact absurd rfl suits
    stream.accepted size (position + 1)
termination_by stream.length - position

/-- A uniform integer between two bounds, both included, and the position after the words it
took. Over the full range a single word is the integer itself. -/
def uniform (stream : WordStream) (low high : Int64) (position : Nat) :
    Except Fault (Int64 × Nat) :=
  if high < low then
    .error .emptyRange
  else
    let size := rangeSize low high
    if size = 0 then
      .ok ((stream.word position).toInt64, position + 1)
    else
      let (word, next) := stream.accepted size position
      .ok (low + (offset size word).toInt64, next)

end WordStream

end ProgramSynthesis
