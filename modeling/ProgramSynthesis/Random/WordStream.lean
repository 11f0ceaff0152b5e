/-!
# Streams of random words

A source of random 64-bit words, read by position. Every stream is zero from some position
on; whatever draws until a word suits it ends there at the latest, if zero suits it.
-/

namespace ProgramSynthesis

/-- Words by position, zero from the length on. -/
structure WordStream where
  /-- The word at a position. -/
  word : Nat → UInt64
  /-- The position from which all words are zero. -/
  length : Nat
  /-- The words from the length on are zero. -/
  zero_of_length_le : ∀ position, length ≤ position → word position = 0

/-- The words of a list, then zeros. -/
def WordStream.ofList (words : List UInt64) : WordStream :=
  let stored := words.toArray
  { word := fun position => stored[position]?.getD 0
    length := words.length
    zero_of_length_le := by
      intro position beyond
      have outside : stored[position]? = none := by
        simpa [stored] using beyond
      rw [outside]
      rfl }

end ProgramSynthesis
