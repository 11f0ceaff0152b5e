import ProgramSynthesis.Proofs.Marks

/-!
# The views of a program agree

Output vector, mask and verdict are three runs over the same examples. The first two evaluate a
program on every example, so they are defined together and meet the same first fault; the mask
compares the vector with the expected outputs, example by example. The verdict stops at the first
example that the program gets wrong. It is the comparison of the whole vector where there is one;
where evaluation faults, it is reached only if some example before the fault is wrong, and it is
then never a verdict of correctness.
-/

namespace ProgramSynthesis

variable {examples : List Example} {index : Nat} {fault : Fault} {vector : List Value}

namespace Expr

variable {program : Expr}

/-- The output vector faults where evaluation first does. -/
theorem outputs_eq_error_iff : program.outputs examples = .error fault ↔
    ∃ index, FaultsFirst (fun case : Example => program.eval case.input) examples index fault :=
  mapM_eq_error_iff

/-- The mask faults where evaluation first does. Comparing a value with the expected one adds no
fault. -/
theorem mask_eq_error_iff : program.mask examples = .error fault ↔
    ∃ index, FaultsFirst (fun case : Example => program.eval case.input) examples index fault := by
  have bits : program.mask examples = .error fault ↔ (examples.mapM fun case => do
      return decide ((← program.eval case.input) = case.output)) = .error fault := by
    rw [mask, bind_eq_error_iff]
    simp
  have same : ∀ (case : Example) (fault : Fault),
      (do return decide ((← program.eval case.input) = case.output) : Except Fault Bool) =
        .error fault ↔ program.eval case.input = .error fault := by
    intro case fault
    rw [bind_eq_error_iff]
    simp
  rw [bits, mapM_eq_error_iff]
  exact exists_congr fun index => faultsFirst_congr same

/-- The mask compares the output vector with the expected outputs. -/
theorem mask_of_outputs (returned : program.outputs examples = .ok vector) :
    program.mask examples =
      .ok ⟨vector.zipWith (fun value case => decide (value = case.output)) examples⟩ := by
  rw [outputs, mapM_eq_ok_iff] at returned
  rw [mask_eq_ok_iff]
  induction returned with
  | nil => exact .nil
  | cons evaluated _ ih => exact .cons ⟨_, evaluated, rfl⟩ ih

/-- The comparison of an output vector with the expected outputs is full when they are the same. -/
theorem isFull_of_outputs (returned : program.outputs examples = .ok vector) :
    Mask.isFull ⟨vector.zipWith (fun value case => decide (value = case.output)) examples⟩ =
      decide (vector = examples.map Example.output) := by
  rw [outputs, mapM_eq_ok_iff] at returned
  induction returned with
  | nil => rfl
  | cons _ _ ih =>
    rw [Mask.isFull] at ih
    simp only [Mask.isFull, List.zipWith_cons_cons, List.all_cons, ih, id_eq, List.map_cons,
      List.cons.injEq, Bool.decide_and]

/-- The verdict on examples on which evaluation faults depends on those before the fault. -/
theorem isCorrect_of_faultsFirst
    (first : FaultsFirst (fun case : Example => program.eval case.input) examples index fault) :
    program.isCorrect examples =
      if ∀ case ∈ examples.take index, program.eval case.input = .ok case.output then .error fault
      else .ok false := by
  induction examples generalizing index with
  | nil =>
    obtain ⟨_, found, _⟩ := first.here
    cases found
  | cons case examples ih =>
    cases index with
    | zero =>
      rw [isCorrect, faultsFirst_cons_zero_iff.mp first, error_bind, List.take_zero,
        if_pos (by simp)]
    | succ index =>
      obtain ⟨⟨value, evaluated⟩, later⟩ := faultsFirst_cons_succ_iff.mp first
      rw [isCorrect, evaluated, ok_bind, List.take_succ_cons]
      simp only [List.forall_mem_cons, evaluated, Except.ok.injEq]
      by_cases right : value = case.output
      · simp only [right, true_and, ↓reduceIte]
        exact ih later
      · simp only [right, false_and, ↓reduceIte, pure_eq_ok]

end Expr

namespace Candidate

variable {candidate : Candidate}

/-- Whether a candidate compiles to a program whose evaluation first faults at a position. -/
def FaultsFirstOn (candidate : Candidate) (examples : List Example) (index : Nat)
    (fault : Fault) : Prop :=
  ∃ program, candidate.compile = .ok program ∧
    FaultsFirst (fun case : Example => program.eval case.input) examples index fault

/-- A view of a candidate faults when the candidate does not compile, or its program faults. -/
theorem bind_compile_eq_error_iff {α : Type} {view : Expr → Except Fault α}
    (faults : ∀ program, view program = .error fault ↔ ∃ index,
      FaultsFirst (fun case : Example => program.eval case.input) examples index fault) :
    (candidate.compile >>= view) = .error fault ↔
      candidate.compile = .error fault ∨ ∃ index, candidate.FaultsFirstOn examples index fault := by
  rw [bind_eq_error_iff]
  simp only [faults, FaultsFirstOn]
  refine or_congr_right ?_
  constructor
  · rintro ⟨program, compiled, index, first⟩
    exact ⟨index, program, compiled, first⟩
  · rintro ⟨index, program, compiled, first⟩
    exact ⟨program, compiled, index, first⟩

/-- The output vector of a candidate faults where evaluation first does. -/
theorem outputs_eq_error_iff : candidate.outputs examples = .error fault ↔
    candidate.compile = .error fault ∨ ∃ index, candidate.FaultsFirstOn examples index fault :=
  bind_compile_eq_error_iff fun _ => Expr.outputs_eq_error_iff

/-- The mask of a candidate faults where evaluation first does. -/
theorem mask_eq_error_iff : candidate.mask examples = .error fault ↔
    candidate.compile = .error fault ∨ ∃ index, candidate.FaultsFirstOn examples index fault :=
  bind_compile_eq_error_iff fun _ => Expr.mask_eq_error_iff

variable {mask : Mask}

/-- The output vector of a candidate has one value per example. -/
theorem length_of_outputs (returned : candidate.outputs examples = .ok vector) :
    vector.length = examples.length := by
  obtain ⟨program, _, returned⟩ := bind_eq_ok_iff.mp returned
  exact (mapM_eq_ok_iff.mp returned).length_eq.symm

/-- The mask of a candidate compares its output vector with the expected outputs. -/
theorem mask_eq_of_outputs (returned : candidate.outputs examples = .ok vector)
    (masked : candidate.mask examples = .ok mask) :
    mask = ⟨vector.zipWith (fun value case => decide (value = case.output)) examples⟩ := by
  obtain ⟨program, compiled, returned⟩ := bind_eq_ok_iff.mp returned
  rw [Candidate.mask, compiled, ok_bind, Expr.mask_of_outputs returned] at masked
  exact (Except.ok.inj masked).symm

/-- The mask of a candidate is full when its output vector lists the expected outputs. -/
theorem isFull_of_outputs (returned : candidate.outputs examples = .ok vector)
    (masked : candidate.mask examples = .ok mask) :
    mask.isFull = decide (vector = examples.map Example.output) := by
  rw [mask_eq_of_outputs returned masked]
  obtain ⟨program, _, returned⟩ := bind_eq_ok_iff.mp returned
  exact Expr.isFull_of_outputs returned

/-- The verdict on examples on which evaluation faults is that of an example before the fault
which the candidate does not solve, and there is none when it solves them all. -/
theorem isCorrect_of_faultsFirstOn (first : candidate.FaultsFirstOn examples index fault) :
    (candidate.isCorrect examples = .ok false ∧
        ∃ case ∈ examples.take index, ¬candidate.Solves case) ∨
      (candidate.isCorrect examples = .error fault ∧
        ∀ case ∈ examples.take index, candidate.Solves case) := by
  obtain ⟨program, compiled, first⟩ := first
  have solves : ∀ case : Example,
      candidate.Solves case ↔ program.eval case.input = .ok case.output := by
    intro case
    simp [Solves, compiled]
  rw [isCorrect, compiled, ok_bind, Expr.isCorrect_of_faultsFirst first]
  by_cases right : ∀ case ∈ examples.take index, program.eval case.input = .ok case.output
  · right
    rw [if_pos right]
    exact ⟨rfl, fun case inside => (solves case).mpr (right case inside)⟩
  · left
    rw [if_neg right]
    push Not at right
    obtain ⟨case, inside, wrong⟩ := right
    exact ⟨rfl, case, inside, fun solved => wrong ((solves case).mp solved)⟩

/-- The views of a candidate agree, faults included. Output vector and mask are defined on the
same examples, and each of them faults exactly where the candidate does not compile or where
evaluation first faults. When they are defined, a bit is set exactly where the vector has the
expected output, and the verdict says whether the mask is full, which is whether the vector is the
list of expected outputs. When evaluation first faults at a position, the verdict is false exactly
when an example before that position is not solved, and otherwise it is the fault. So a verdict of
correctness is reached only when every evaluation succeeds. -/
theorem views_agree (candidate : Candidate) (examples : List Example) :
    ((∃ vector, candidate.outputs examples = .ok vector) ↔
      ∃ mask, candidate.mask examples = .ok mask) ∧
    (∀ fault,
      (candidate.outputs examples = .error fault ↔ candidate.compile = .error fault ∨
        ∃ index, candidate.FaultsFirstOn examples index fault) ∧
      (candidate.mask examples = .error fault ↔ candidate.compile = .error fault ∨
        ∃ index, candidate.FaultsFirstOn examples index fault)) ∧
    (∀ vector mask, candidate.outputs examples = .ok vector → candidate.mask examples = .ok mask →
      vector.length = examples.length ∧ mask.length = examples.length ∧
      (∀ (index : Nat) value case, vector[index]? = some value → examples[index]? = some case →
        (mask.bits[index]? = some true ↔ value = case.output)) ∧
      candidate.isCorrect examples = .ok mask.isFull ∧
      (mask.isFull = true ↔ vector = examples.map Example.output)) ∧
    (∀ index fault, candidate.FaultsFirstOn examples index fault →
      (candidate.isCorrect examples = .ok false ↔
        ∃ case ∈ examples.take index, ¬candidate.Solves case) ∧
      (candidate.isCorrect examples = .error fault ↔
        ∀ case ∈ examples.take index, candidate.Solves case)) ∧
    (∀ fault, candidate.compile = .error fault → candidate.isCorrect examples = .error fault) ∧
    (candidate.isCorrect examples = .ok true →
      ∃ vector, candidate.outputs examples = .ok vector) := by
  have alike : ∀ fault, candidate.outputs examples = .error fault ↔
      candidate.mask examples = .error fault := by
    intro fault
    rw [outputs_eq_error_iff, mask_eq_error_iff]
  refine ⟨?_, fun fault => ⟨outputs_eq_error_iff, mask_eq_error_iff⟩, ?_, ?_, ?_, ?_⟩
  · rw [exists_eq_ok_iff, exists_eq_ok_iff]
    exact forall_congr' fun fault => not_congr (alike fault)
  · intro vector mask returned masked
    have full := isFull_of_outputs returned masked
    refine ⟨length_of_outputs returned, length_of_mask masked, ?_, ?_, ?_⟩
    · intro index value case here expected
      rw [mask_eq_of_outputs returned masked, List.getElem?_zipWith, here, expected]
      simp
    · rw [isCorrect_of_outputs returned, full]
    · rw [full, decide_eq_true_iff]
  · intro index fault first
    rcases isCorrect_of_faultsFirstOn first with ⟨wrong, unsolved⟩ | ⟨faulted, solved⟩
    · rw [wrong]
      refine ⟨iff_of_true rfl unsolved, iff_of_false nofun fun solved => ?_⟩
      obtain ⟨case, inside, unsolved⟩ := unsolved
      exact unsolved (solved case inside)
    · rw [faulted]
      refine ⟨iff_of_false nofun ?_, iff_of_true rfl solved⟩
      rintro ⟨case, inside, unsolved⟩
      exact unsolved (solved case inside)
  · intro fault failed
    rw [isCorrect, failed, error_bind]
  · intro correct
    obtain ⟨program, compiled, verdict⟩ := bind_eq_ok_iff.mp correct
    refine ⟨examples.map Example.output, ?_⟩
    rw [outputs, compiled, ok_bind, Expr.outputs_of_isCorrect verdict]

/-- A wrong first example hides the fault on the second one from the verdict, and only from it. -/
example : (leaf (.var "y")).isCorrect [⟨.ofList [("y", 1)], .int 0⟩, ⟨.empty, .int 0⟩] = .ok false ∧
    (leaf (.var "y")).mask [⟨.ofList [("y", 1)], .int 0⟩, ⟨.empty, .int 0⟩] =
      .error (.unboundVariable "y") := by
  decide +kernel

end Candidate

end ProgramSynthesis
