import Mathlib.Algebra.Ring.Nat
import ProgramSynthesis.Random.Uniform

/-!
# Uniform draws stay within their bounds

The size of a range is computed in wrapping words, and an offset below that size is added to the
lower bound in wrapping words again. In exact integers the size is the true one modulo the word
size, zero only for the range of all words, and a sum of the lower bound and an offset below the
size never leaves the range, so nothing wraps in the end. A draw takes the first accepted word at
or after its position; the words skipped all stand before the end of the stream.
-/

namespace ProgramSynthesis

/-- The unsigned reading of a signed word is its value modulo the word size. -/
theorem toNat_toUInt64 (value : Int64) :
    (value.toUInt64.toNat : Int) = value.toInt % (2 ^ 64 : Nat) := by
  have below : value.toUInt64.toNat < 2 ^ 64 := value.toUInt64.toNat_lt
  have signed : value.toInt = (value.toUInt64.toNat : Int).bmod (2 ^ 64) :=
    BitVec.toInt_eq_toNat_bmod value.toBitVec
  rw [signed, Int.bmod_emod]
  omega

/-- The size of a range is the number of its members modulo the word size. -/
theorem toNat_rangeSize (low high : Int64) :
    ((rangeSize low high).toNat : Int) = (high.toInt - low.toInt + 1) % (2 ^ 64 : Nat) := by
  have one : (1 : Int64).toInt = 1 := by decide
  rw [rangeSize, toNat_toUInt64, Int64.toInt_add, Int64.toInt_sub, one, Int.bmod_add_bmod,
    Int.bmod_emod]

/-- A range of size zero holds every word, and any other size is exact. -/
theorem rangeSize_cases {low high : Int64} (ordered : low ≤ high) :
    (rangeSize low high = 0 ∧ low = Int64.minValue ∧ high = Int64.maxValue) ∨
    (rangeSize low high ≠ 0 ∧
      ((rangeSize low high).toNat : Int) = high.toInt - low.toInt + 1) := by
  have exactly : ((rangeSize low high).toNat : Int) =
    (high.toInt - low.toInt + 1) % (2 ^ 64 : Nat) := toNat_rangeSize low high
  have order : low.toInt ≤ high.toInt := Int64.le_iff_toInt_le.mp ordered
  have least : -2 ^ 63 ≤ low.toInt := Int64.le_toInt low
  have greatest : high.toInt < 2 ^ 63 := Int64.toInt_lt high
  by_cases full : rangeSize low high = 0
  · left
    have zero : ((rangeSize low high).toNat : Int) = 0 := by rw [full]; rfl
    have bottom : low.toInt = Int64.minValue.toInt := by
      rw [Int64.toInt_minValue]
      omega
    have top : high.toInt = Int64.maxValue.toInt := by
      rw [Int64.toInt_maxValue]
      omega
    exact ⟨full, Int64.toInt_inj.mp bottom, Int64.toInt_inj.mp top⟩
  · right
    have nonzero : (rangeSize low high).toNat ≠ 0 := fun zero =>
      full (UInt64.toNat_inj.mp zero)
    exact ⟨full, by omega⟩

/-- An offset is below the size of its range. -/
theorem offset_lt {size : UInt64} (word : UInt64) (nonzero : size ≠ 0) :
    (offset size word).toNat < size.toNat := by
  have below : word.toNat < UInt64.size := word.toNat_lt
  have fits : size.toNat < UInt64.size := size.toNat_lt
  have positive : 0 < size.toNat :=
    Nat.pos_of_ne_zero fun zero => nonzero (UInt64.toNat_inj.mp zero)
  have quotient : word.toNat * size.toNat / UInt64.size < size.toNat := by
    apply Nat.div_lt_of_lt_mul
    exact Nat.mul_lt_mul_of_pos_right below positive
  rw [offset, UInt64.toNat_ofNat', Nat.mod_eq_of_lt (Nat.lt_trans quotient fits)]
  exact quotient

/-- The lower bound plus an offset below the size of the range is the exact sum. -/
theorem toInt_add_offset {low high : Int64} {shift : UInt64} (ordered : low ≤ high)
    (inside : shift.toNat < (rangeSize low high).toNat) :
    (low + shift.toInt64).toInt = low.toInt + shift.toNat ∧
      low.toInt + shift.toNat ≤ high.toInt := by
  have exactly : ((rangeSize low high).toNat : Int) = high.toInt - low.toInt + 1 := by
    rcases rangeSize_cases ordered with ⟨zero, _⟩ | ⟨_, exactly⟩
    · rw [zero] at inside
      exact absurd inside (Nat.not_lt_zero _)
    · exact exactly
  have within : low.toInt + shift.toNat ≤ high.toInt := by omega
  have least : -2 ^ 63 ≤ low.toInt := Int64.le_toInt low
  have greatest : high.toInt < 2 ^ 63 := Int64.toInt_lt high
  have signed : shift.toInt64.toInt = (shift.toNat : Int).bmod (2 ^ 64) :=
    BitVec.toInt_eq_toNat_bmod shift.toBitVec
  refine ⟨?_, within⟩
  rw [Int64.toInt_add, signed, Int.add_bmod_bmod]
  exact Int.bmod_eq_of_le (by omega) (by omega)

namespace WordStream

variable (stream : WordStream)

/-- The accepted word is the first from the position on, and it stands no later than the first zero
behind all words. -/
theorem exists_accepted (size : UInt64) (position : Nat) :
    ∃ index, position ≤ index ∧ index ≤ max position stream.length ∧
      stream.accepted size position = (stream.word index, index + 1) ∧
      accepts size (stream.word index) = true ∧
      ∀ skipped, position ≤ skipped → skipped < index →
        accepts size (stream.word skipped) = false := by
  fun_induction accepted stream size position with
  | case1 position suits =>
    exact ⟨position, Nat.le_refl _, Nat.le_max_left _ _, rfl, suits, fun skipped _ _ => by omega⟩
  | case2 position refused inside ih =>
    obtain ⟨index, after, bounded, taken, suits, rejected⟩ := ih
    refine ⟨index, by omega, by omega, taken, suits, ?_⟩
    intro skipped start before
    by_cases first : skipped = position
    · rw [first]
      exact Bool.eq_false_iff.mpr refused
    · exact rejected skipped (by omega) before

/-- A draw between two bounds returns a value between them, and takes one word besides those that it
skips before the end of the stream. -/
theorem exists_uniform {low high : Int64} (ordered : low ≤ high) (position : Nat) :
    ∃ value next, stream.uniform low high position = .ok (value, next) ∧
      (low ≤ value ∧ value ≤ high) ∧
      position + 1 ≤ next ∧ next ≤ max position stream.length + 1 := by
  have order : low.toInt ≤ high.toInt := Int64.le_iff_toInt_le.mp ordered
  have possible : ¬high < low := fun less => by
    have strict : high.toInt < low.toInt := Int64.lt_iff_toInt_lt.mp less
    omega
  rw [uniform, if_neg possible]
  rcases rangeSize_cases ordered with ⟨full, rfl, rfl⟩ | ⟨nonzero, _⟩
  · refine ⟨(stream.word position).toInt64, position + 1, by simp only [full, ↓reduceIte],
      ⟨Int64.minValue_le _, Int64.le_maxValue _⟩, Nat.le_refl _, by omega⟩
  · obtain ⟨index, start, bounded, taken, _⟩ :=
      stream.exists_accepted (rangeSize low high) position
    have inside : (offset (rangeSize low high) (stream.word index)).toNat <
      (rangeSize low high).toNat := offset_lt _ nonzero
    obtain ⟨sum, upper⟩ := toInt_add_offset ordered inside
    refine ⟨low + (offset (rangeSize low high) (stream.word index)).toInt64, index + 1, ?_,
      ⟨?_, ?_⟩, by omega, by omega⟩
    · simp only [if_neg nonzero, taken]
    · rw [Int64.le_iff_toInt_le, sum]
      omega
    · rw [Int64.le_iff_toInt_le, sum]
      exact upper

end WordStream

end ProgramSynthesis
