/-!
# Machine words

Counters are 64-bit words and integers are 64 bits with a sign. `maxCount` is the largest
counter, and `int64?` admits exactly the integers that a signed word holds.
-/

namespace ProgramSynthesis

/-- The largest machine word. -/
def maxCount : Nat := UInt64.size - 1

/-- An integer as a signed word, if it fits. -/
def int64? (exact : Int) : Option Int64 :=
  if Int64.minValue.toInt ≤ exact ∧ exact ≤ Int64.maxValue.toInt then
    some (.ofInt exact)
  else
    none

/-- A signed word holds an integer exactly when it is that integer. -/
theorem int64?_eq_some_iff (exact : Int) (word : Int64) :
    int64? exact = some word ↔ word.toInt = exact := by
  unfold int64?
  split
  · rename_i fits
    have held : (Int64.ofInt exact).toInt = exact :=
      Int64.toInt_ofInt_of_le fits.1 (Int.lt_add_one_of_le fits.2)
    constructor
    · rintro ⟨⟩
      exact held
    · intro same
      exact congrArg some (Int64.toInt_inj.mp (held.trans same.symm))
  · rename_i outside
    constructor
    · rintro ⟨⟩
    · rintro rfl
      exact absurd ⟨Int64.minValue_le_toInt word, Int64.toInt_le word⟩ outside

end ProgramSynthesis
