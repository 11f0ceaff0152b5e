import Mathlib.Data.List.Induction
import ProgramSynthesis.Proofs.Behaviour

/-!
# Masks, example by example

A mask is read one example at a time: `Mask.marks` says whether an example is marked. Unions,
complements and counts are described by what they mark, and the mask of a program by the
examples on which the program returns the expected output.
-/

namespace ProgramSynthesis

namespace Mask

variable {mask left right both all : Mask} {masks : List Mask} {length index : Nat}

/-- Whether the example at a position is marked. -/
def marks (mask : Mask) (index : Nat) : Bool := mask.bits.getD index false

/-- A bit stands at a position of a mask exactly when it says whether the example there is
marked. -/
theorem getElem?_bits_iff {bit : Bool} :
    mask.bits[index]? = some bit ↔ index < mask.length ∧ mask.marks index = bit := by
  rw [List.getElem?_eq_some_iff, marks, List.getD_eq_getElem?_getD]
  constructor
  · rintro ⟨inside, same⟩
    exact ⟨inside, by rw [List.getElem?_eq_getElem inside, Option.getD_some, same]⟩
  · rintro ⟨inside, same⟩
    rw [List.getElem?_eq_getElem inside, Option.getD_some] at same
    exact ⟨inside, same⟩

/-- A marked example is one of the examples. -/
theorem lt_length_of_marks (marked : mask.marks index = true) : index < mask.length := by
  by_contra outside
  have nothing : mask.bits[index]? = none := List.getElem?_eq_none (Nat.le_of_not_lt outside)
  rw [marks, List.getD_eq_getElem?_getD, nothing] at marked
  cases marked

/-- A bit occurs in a mask when it is that of some example. -/
theorem mem_bits_of_marks {bit : Bool} (inside : index < mask.length)
    (same : mask.marks index = bit) : bit ∈ mask.bits :=
  List.mem_of_getElem? (getElem?_bits_iff.mpr ⟨inside, same⟩)

/-- Masks over as many examples that mark the same ones are equal. -/
theorem ext_marks (counted : left.length = right.length)
    (same : ∀ index < left.length, left.marks index = right.marks index) : left = right := by
  obtain ⟨bits⟩ := left
  obtain ⟨others⟩ := right
  congr 1
  apply List.ext_getElem counted
  intro index inside within
  have here := same index inside
  simp only [marks, List.getD_eq_getElem?_getD] at here
  rwa [List.getElem?_eq_getElem inside, List.getElem?_eq_getElem within] at here

/-- The full mask marks every example. -/
theorem marks_full (inside : index < length) : (full length).marks index = true := by
  simp [marks, full, inside]

/-- The empty mask marks no example. -/
@[simp] theorem marks_empty (length index : Nat) : (empty length).marks index = false := by
  rw [marks, empty, List.getD_eq_getElem?_getD, List.getElem?_replicate]
  split <;> rfl

/-- The empty mask is over as many examples as it says. -/
@[simp] theorem length_empty (length : Nat) : (empty length).length = length := by
  simp [empty, Mask.length]

/-- A mask and its complement are over the same examples. -/
@[simp] theorem length_complement (mask : Mask) : mask.complement.length = mask.length := by
  simp [complement, Mask.length]

/-- Outside the full mask no example is left. -/
@[simp] theorem complement_full (length : Nat) : (full length).complement = empty length := by
  simp [full, complement, empty]

/-- Outside the empty mask every example is left. -/
@[simp] theorem complement_empty (length : Nat) : (empty length).complement = full length := by
  simp [full, complement, empty]

/-- The complement marks the other examples. -/
theorem marks_complement (inside : index < mask.length) :
    mask.complement.marks index = !mask.marks index := by
  have within : index < mask.bits.length := inside
  simp [marks, complement, within]

/-- A union is over the examples of both masks. -/
theorem length_of_union (joined : left.union right = .ok both) :
    left.length = both.length ∧ right.length = both.length := by
  obtain ⟨counted, rfl⟩ := (union_eq_ok_iff left right both).mp joined
  simp only [Mask.length, List.length_zipWith] at counted ⊢
  omega

/-- A union marks what one of the two masks marks. -/
theorem marks_of_union (joined : left.union right = .ok both) (index : Nat) :
    both.marks index = (left.marks index || right.marks index) := by
  obtain ⟨counted, rfl⟩ := (union_eq_ok_iff left right both).mp joined
  have same : left.bits.length = right.bits.length := counted
  simp only [marks, List.getD_eq_getElem?_getD, List.getElem?_zipWith]
  by_cases inside : index < left.bits.length
  · have within : index < right.bits.length := same ▸ inside
    simp [inside, within]
  · have outside : ¬index < right.bits.length := same ▸ inside
    simp [inside, outside]

/-- A union of several masks is over the same number of examples as each of them. -/
theorem length_of_unionAll (joined : unionAll length masks = .ok all) :
    all.length = length ∧ ∀ mask ∈ masks, mask.length = length := by
  induction masks using List.reverseRecOn generalizing all with
  | nil =>
    cases joined
    exact ⟨length_empty length, by simp⟩
  | append_singleton masks mask ih =>
    rw [unionAll_append_singleton, bind_eq_ok_iff] at joined
    obtain ⟨before, unioned, joined⟩ := joined
    obtain ⟨counted, each⟩ := ih unioned
    obtain ⟨left, right⟩ := length_of_union joined
    have whole : all.length = length := left.symm.trans counted
    refine ⟨whole, fun other inside => ?_⟩
    rcases List.mem_append.mp inside with earlier | last
    · exact each other earlier
    · rw [List.mem_singleton.mp last, right, whole]

/-- A union of several masks marks what one of them marks. -/
theorem marks_of_unionAll (joined : unionAll length masks = .ok all) (index : Nat) :
    all.marks index = masks.any (·.marks index) := by
  induction masks using List.reverseRecOn generalizing all with
  | nil =>
    cases joined
    exact marks_empty length index
  | append_singleton masks mask ih =>
    rw [unionAll_append_singleton, bind_eq_ok_iff] at joined
    obtain ⟨before, unioned, joined⟩ := joined
    rw [marks_of_union joined, ih unioned]
    simp

/-- Masks over as many examples have a union. -/
theorem exists_unionAll (counted : ∀ mask ∈ masks, mask.length = length) :
    ∃ all, unionAll length masks = .ok all := by
  induction masks using List.reverseRecOn with
  | nil => exact ⟨_, rfl⟩
  | append_singleton masks mask ih =>
    obtain ⟨before, unioned⟩ := ih fun other inside => counted other (List.mem_append_left _ inside)
    have same : before.length = mask.length := by
      rw [(length_of_unionAll unioned).1, counted mask (by simp)]
    rw [unionAll_append_singleton, unioned, ok_bind]
    exact ⟨_, (union_eq_ok_iff _ _ _).mpr ⟨same, rfl⟩⟩

/-- The union of one mask is that mask. -/
theorem unionAll_singleton (counted : mask.length = length) :
    unionAll length [mask] = .ok mask := by
  have each : ∀ other ∈ [mask], other.length = length := by simp [counted]
  obtain ⟨all, joined⟩ := exists_unionAll each
  have same : all = mask := by
    apply ext_marks
    · rw [(length_of_unionAll joined).1, counted]
    · intro index _
      rw [marks_of_unionAll joined]
      simp
  rw [joined, same]

/-- A positive count within a mask is due to an example that both mark. -/
theorem exists_marks_of_countWithin {within : Mask} {gain : Nat}
    (counted : mask.countWithin within = .ok gain) (positive : 0 < gain) :
    ∃ index, mask.marks index = true ∧ within.marks index = true := by
  obtain ⟨_, rfl⟩ := (countWithin_eq_ok_iff _ _ _).mp counted
  obtain ⟨index, found⟩ := List.mem_iff_getElem?.mp (List.count_pos_iff.mp positive)
  obtain ⟨bit, other, here, there, both⟩ := List.getElem?_zipWith_eq_some.mp found
  obtain ⟨marked, bounded⟩ := Bool.and_eq_true_iff.mp both
  exact ⟨index, (getElem?_bits_iff.mp here).2.trans marked,
    (getElem?_bits_iff.mp there).2.trans bounded⟩

/-- Where nothing is counted within a mask, what is marked is outside it. -/
theorem marks_of_countWithin_eq_zero {within : Mask} (counted : mask.countWithin within = .ok 0)
    (marked : mask.marks index = true) : within.marks index = false := by
  obtain ⟨same, none⟩ := (countWithin_eq_ok_iff _ _ _).mp counted
  have inside : index < mask.length := lt_length_of_marks marked
  have here := getElem?_bits_iff.mpr ⟨inside, marked⟩
  have there := getElem?_bits_iff.mpr ⟨same ▸ inside, Eq.refl (within.marks index)⟩
  by_contra bounded
  rw [Bool.not_eq_false] at bounded
  rw [bounded] at there
  have both : (mask.bits.zipWith (· && ·) within.bits)[index]? = some true :=
    List.getElem?_zipWith_eq_some.mpr ⟨true, true, here, there, rfl⟩
  exact List.count_eq_zero.mp none (List.mem_of_getElem? both)

/-- A mask that counts something marks an example. -/
theorem exists_marks_of_count_ne_zero (some : mask.count ≠ 0) :
    ∃ index, mask.marks index = true := by
  obtain ⟨index, found⟩ :=
    List.mem_iff_getElem?.mp (List.count_pos_iff.mp (Nat.pos_of_ne_zero some))
  exact ⟨index, (getElem?_bits_iff.mp found).2⟩

/-- A mask of which everything is counted is full. -/
theorem eq_full_of_countWithin_full {gain : Nat}
    (counted : mask.countWithin (full length) = .ok gain) (most : length ≤ gain) :
    mask = full length := by
  obtain ⟨same, rfl⟩ := (countWithin_eq_ok_iff _ _ _).mp counted
  rw [length_full] at same
  have whole : (mask.bits.zipWith (· && ·) (full length).bits).length = length := by
    simp [full, show mask.bits.length = length from same]
  have every := List.count_eq_length.mp
    (Nat.le_antisymm List.count_le_length (Nat.le_trans (Nat.le_of_eq whole) most))
  apply ext_marks
  · rw [same, length_full]
  · intro index inside
    rw [marks_full (same ▸ inside)]
    have here := getElem?_bits_iff.mpr ⟨inside, Eq.refl (mask.marks index)⟩
    have within : index < (full length).length := by rwa [length_full, ← same]
    have there := getElem?_bits_iff.mpr ⟨within, marks_full (same ▸ inside)⟩
    have both : (mask.bits.zipWith (· && ·) (full length).bits)[index]? =
        some (mask.marks index && true) :=
      List.getElem?_zipWith_eq_some.mpr ⟨_, _, here, there, rfl⟩
    rw [← Bool.and_true (mask.marks index)]
    exact (every _ (List.mem_of_getElem? both)).symm

/-- All of the full mask is counted within itself. -/
theorem countWithin_full_full (length : Nat) :
    (full length).countWithin (full length) = .ok length := by
  rw [countWithin_eq_ok_iff]
  simp [full]

/-- Nothing is left unmarked by a full mask only. -/
theorem eq_full_of_count_complement (counted : mask.length = length)
    (none : mask.complement.count = 0) : mask = full length := by
  apply ext_marks
  · rw [counted, length_full]
  · intro index inside
    rw [marks_full (counted ▸ inside)]
    by_contra unmarked
    have other : mask.complement.marks index = true := by
      rw [marks_complement inside, Bool.eq_false_iff.mpr unmarked]
      rfl
    have occurs := mem_bits_of_marks (lt_length_of_marks other) other
    exact List.count_eq_zero.mp none occurs

/-- The full mask is full. -/
theorem isFull_full (length : Nat) : (full length).isFull = true := by simp [isFull, full]

end Mask

namespace Expr

variable {examples : List Example} {program : Expr} {mask : Mask}

/-- The mask of a program has one bit per example. -/
theorem length_of_mask (masked : program.mask examples = .ok mask) :
    mask.length = examples.length :=
  (mask_eq_ok_iff.mp masked).length_eq.symm

/-- A mask is that of a program when it is over the examples, the program has a value on each
of them, and exactly those with the expected value are marked. -/
theorem mask_eq_ok_iff_marks : program.mask examples = .ok mask ↔
    mask.length = examples.length ∧ ∀ index case, examples[index]? = some case →
      ∃ value, program.eval case.input = .ok value ∧
        mask.marks index = decide (value = case.output) := by
  rw [mask_eq_ok_iff, List.forall₂_iff_get]
  constructor
  · rintro ⟨counted, each⟩
    refine ⟨counted.symm, fun index case found => ?_⟩
    obtain ⟨inside, rfl⟩ := List.getElem?_eq_some_iff.mp found
    obtain ⟨value, evaluated, bit⟩ := each index inside (counted ▸ inside)
    refine ⟨value, evaluated, ?_⟩
    rw [List.get_eq_getElem] at bit
    exact (Mask.getElem?_bits_iff.mp (List.getElem?_eq_some_iff.mpr ⟨_, bit.symm⟩)).2
  · rintro ⟨counted, each⟩
    refine ⟨counted.symm, fun index inside within => ?_⟩
    obtain ⟨value, evaluated, marked⟩ :=
      each index examples[index] (List.getElem?_eq_getElem inside)
    refine ⟨value, evaluated, ?_⟩
    rw [List.get_eq_getElem, List.get_eq_getElem, ← marked]
    exact (Mask.getElem?_bits_iff.mp (List.getElem?_eq_getElem within)).2

/-- The mask of a program marks exactly the examples on which it is right. -/
theorem marks_iff_of_mask (masked : program.mask examples = .ok mask) {index : Nat}
    {case : Example} (found : examples[index]? = some case) :
    mask.marks index = true ↔ program.eval case.input = .ok case.output := by
  obtain ⟨value, evaluated, marked⟩ := (mask_eq_ok_iff_marks.mp masked).2 index case found
  rw [marked, evaluated, decide_eq_true_eq, Except.ok.injEq]

/-- A program that is right where it should be has the verdict of correctness. -/
theorem isCorrect_of_forall
    (right : ∀ case ∈ examples, program.eval case.input = .ok case.output) :
    program.isCorrect examples = .ok true := by
  have returned : program.outputs examples = .ok (examples.map Example.output) := by
    rw [outputs]
    exact mapM_eq_ok_map right
  rw [isCorrect_of_outputs returned, decide_eq_true rfl]

/-- A program is correct exactly when it returns the expected output on every example. -/
theorem isCorrect_eq_true_iff : program.isCorrect examples = .ok true ↔
    ∀ case ∈ examples, program.eval case.input = .ok case.output := by
  refine ⟨fun correct => ?_, isCorrect_of_forall⟩
  have returned := mapM_eq_ok_iff.mp (outputs_of_isCorrect correct)
  rwa [List.forall₂_map_right_iff, List.forall₂_same] at returned

/-- The mask of a correct program is full. -/
theorem mask_full_of_isCorrect (correct : program.isCorrect examples = .ok true) :
    program.mask examples = .ok (.full examples.length) := by
  rw [mask_eq_ok_iff_marks]
  refine ⟨Mask.length_full _, fun index case found => ?_⟩
  have right := isCorrect_eq_true_iff.mp correct case (List.mem_of_getElem? found)
  refine ⟨case.output, right, ?_⟩
  rw [Mask.marks_full (List.getElem?_eq_some_iff.mp found).1, decide_eq_true rfl]

/-- A program whose mask is full is correct. -/
theorem isCorrect_of_mask_full
    (masked : program.mask examples = .ok (.full examples.length)) :
    program.isCorrect examples = .ok true := by
  apply isCorrect_of_forall
  intro case inside
  obtain ⟨index, found⟩ := List.mem_iff_getElem?.mp inside
  have within : index < examples.length := (List.getElem?_eq_some_iff.mp found).1
  exact (marks_iff_of_mask masked found).mp (Mask.marks_full within)

end Expr

namespace Candidate

variable {candidate left right : Candidate} {examples : List Example} {mask : Mask}

/-- The mask of a candidate has one bit per example. -/
theorem length_of_mask (masked : candidate.mask examples = .ok mask) :
    mask.length = examples.length := by
  obtain ⟨program, _, masked⟩ := bind_eq_ok_iff.mp masked
  exact Expr.length_of_mask masked

/-- Whether a candidate compiles to a program that is right on an example. -/
def Solves (candidate : Candidate) (case : Example) : Prop :=
  ∃ program, candidate.compile = .ok program ∧ program.eval case.input = .ok case.output

/-- Over at least one example, a candidate is correct exactly if it solves all of them. Over none,
a candidate that does not compile solves all of them too. -/
theorem isCorrect_eq_true_iff (nonempty : examples ≠ []) :
    candidate.isCorrect examples = .ok true ↔ ∀ case ∈ examples, candidate.Solves case := by
  constructor
  · intro correct case inside
    obtain ⟨program, compiled, correct⟩ := bind_eq_ok_iff.mp correct
    exact ⟨program, compiled, Expr.isCorrect_eq_true_iff.mp correct case inside⟩
  · intro solves
    obtain ⟨first, here⟩ := List.exists_mem_of_ne_nil examples nonempty
    obtain ⟨program, compiled, _⟩ := solves first here
    refine bind_eq_ok_iff.mpr ⟨program, compiled, Expr.isCorrect_eq_true_iff.mpr ?_⟩
    intro case inside
    obtain ⟨other, same, right⟩ := solves case inside
    rw [compiled] at same
    exact Except.ok.inj same ▸ right

/-- The mask of a candidate marks exactly the examples that the candidate solves. -/
theorem marks_iff_solves (masked : candidate.mask examples = .ok mask) {index : Nat}
    {case : Example} (found : examples[index]? = some case) :
    mask.marks index = true ↔ candidate.Solves case := by
  obtain ⟨program, compiled, masked⟩ := bind_eq_ok_iff.mp masked
  rw [Expr.marks_iff_of_mask masked found]
  constructor
  · exact fun right => ⟨program, compiled, right⟩
  · rintro ⟨other, same, right⟩
    rw [compiled] at same
    exact Except.ok.inj same ▸ right

/-- A candidate whose mask is full is correct. -/
theorem isCorrect_of_mask_full (masked : candidate.mask examples = .ok (.full examples.length)) :
    candidate.isCorrect examples = .ok true := by
  obtain ⟨program, compiled, masked⟩ := bind_eq_ok_iff.mp masked
  rw [isCorrect, compiled, ok_bind]
  exact Expr.isCorrect_of_mask_full masked

/-- The mask of a candidate marks the examples on which a program that behaves like it is right. -/
theorem marks_iff_of_behaviour (masked : left.mask examples = .ok mask)
    (alike : left.behaviour examples = right.behaviour examples) {program : Expr}
    (compiled : right.compile = .ok program) {index : Nat} {case : Example}
    (found : examples[index]? = some case) :
    mask.marks index = true ↔ program.eval case.input = .ok case.output := by
  obtain ⟨first, firstCompiled, masked⟩ := bind_eq_ok_iff.mp masked
  rcases behaviour_eq_iff.mp alike with ⟨_, failed, _⟩ | ⟨_, second, done, done', agree⟩
  · rw [failed] at firstCompiled
    cases firstCompiled
  · rw [firstCompiled] at done
    rw [compiled] at done'
    cases done
    cases done'
    rw [Expr.marks_iff_of_mask masked found, agree case (List.mem_of_getElem? found)]

/-- Correct candidates behave alike. -/
theorem behaviour_eq_of_isCorrect (correct : left.isCorrect examples = .ok true)
    (other : right.isCorrect examples = .ok true) :
    left.behaviour examples = right.behaviour examples := by
  obtain ⟨first, firstCompiled, correct⟩ := bind_eq_ok_iff.mp correct
  obtain ⟨second, secondCompiled, other⟩ := bind_eq_ok_iff.mp other
  rw [behaviour_eq_iff]
  refine .inr ⟨first, second, firstCompiled, secondCompiled, fun case inside => ?_⟩
  rw [Expr.isCorrect_eq_true_iff.mp correct case inside,
    Expr.isCorrect_eq_true_iff.mp other case inside]

end Candidate

end ProgramSynthesis
