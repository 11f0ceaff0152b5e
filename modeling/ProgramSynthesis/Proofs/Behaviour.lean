import ProgramSynthesis.Correctness
import ProgramSynthesis.Proofs.Typing

/-!
# Behaviour on examples

The behaviour of a candidate is what it does on each example, a value or a fault. Operators
cannot tell candidates of one behaviour apart, at any operand position and whether or not the
candidates are well typed. Output vectors, masks and verdicts are read off the behaviour; on
examples that bind the declared names a well-typed candidate has all three.
-/

namespace ProgramSynthesis

/-- What a candidate does on each example. A candidate that lacks an operand does nothing. -/
def Candidate.behaviour (candidate : Candidate) (examples : List Example) :
    Except Fault (List (Except Fault Value)) := do
  let program ← candidate.compile
  return examples.map fun case => program.eval case.input

/-- Whether every example binds the declared names. -/
def Grammar.BoundBy (grammar : Grammar) (examples : List Example) : Prop :=
  ∀ case ∈ examples, case.input.BindsAll grammar.names

instance (grammar : Grammar) (examples : List Example) : Decidable (grammar.BoundBy examples) :=
  inferInstanceAs (Decidable (∀ case ∈ examples, case.input.BindsAll grammar.names))

namespace Candidate

variable {examples : List Example} {left right candidate : Candidate}

/-- Candidates of one behaviour fail to compile alike, or compile to programs that agree on
every example. -/
theorem behaviour_eq_iff : left.behaviour examples = right.behaviour examples ↔
    (∃ fault, left.compile = .error fault ∧ right.compile = .error fault) ∨
      ∃ first second, left.compile = .ok first ∧ right.compile = .ok second ∧
        ∀ case ∈ examples, first.eval case.input = second.eval case.input := by
  unfold behaviour
  cases leftCompiled : left.compile with
  | error fault =>
    cases rightCompiled : right.compile with
    | error other => simp [eq_comm]
    | ok second => simp
  | ok first =>
    cases rightCompiled : right.compile with
    | error other => simp
    | ok second => simp

/-- A two-operand form with fewer than two operands does not compile. -/
theorem compile_binary_of_length_lt (form : BinaryOp) {operands : List Candidate}
    (few : operands.length < 2) :
    (node form.op operands).compile = .error .missingOperand := by
  match operands, few with
  | [], _ => cases form <;> rfl
  | [_], _ => cases form <;> rfl

/-- A two-operand form behaves alike over operands that behave alike. -/
theorem behaviour_binary_congr (form : BinaryOp) {left' right' : Candidate}
    {rest rest' : List Candidate} (leftAlike : left.behaviour examples = left'.behaviour examples)
    (rightAlike : right.behaviour examples = right'.behaviour examples) :
    (node form.op (left :: right :: rest)).behaviour examples =
      (node form.op (left' :: right' :: rest')).behaviour examples := by
  rw [behaviour_eq_iff, compile_binary, compile_binary]
  rcases behaviour_eq_iff.mp leftAlike with ⟨fault, failed, failed'⟩ | ⟨p, p', done, done', agree⟩
  · rw [failed, failed']
    exact .inl ⟨fault, rfl, rfl⟩
  · rcases behaviour_eq_iff.mp rightAlike with ⟨fault, failed, failed'⟩ | ⟨q, q', ran, ran', same⟩
    · rw [done, done', failed, failed']
      exact .inl ⟨fault, rfl, rfl⟩
    · rw [done, done', ran, ran']
      refine .inr ⟨_, _, rfl, rfl, fun case inside => ?_⟩
      rw [Expr.eval, Expr.eval, agree case inside, same case inside]

/-- The negation behaves alike over operands that behave alike. -/
theorem behaviour_not_congr {rest rest' : List Candidate}
    (alike : left.behaviour examples = right.behaviour examples) :
    (node .not (left :: rest)).behaviour examples =
      (node .not (right :: rest')).behaviour examples := by
  rw [behaviour_eq_iff, compile, compile]
  rcases behaviour_eq_iff.mp alike with ⟨fault, failed, failed'⟩ | ⟨p, p', done, done', agree⟩
  · rw [failed, failed']
    exact .inl ⟨fault, rfl, rfl⟩
  · rw [done, done']
    refine .inr ⟨_, _, rfl, rfl, fun case inside => ?_⟩
    rw [Expr.eval, Expr.eval, agree case inside]

/-- The conditional behaves alike over operands that behave alike. -/
theorem behaviour_ite_congr {condition condition' consequent consequent' alternative
    alternative' : Candidate} {rest rest' : List Candidate}
    (conditionAlike : condition.behaviour examples = condition'.behaviour examples)
    (consequentAlike : consequent.behaviour examples = consequent'.behaviour examples)
    (alternativeAlike : alternative.behaviour examples = alternative'.behaviour examples) :
    (node .ite (condition :: consequent :: alternative :: rest)).behaviour examples =
      (node .ite (condition' :: consequent' :: alternative' :: rest')).behaviour examples := by
  rw [behaviour_eq_iff, compile, compile]
  rcases behaviour_eq_iff.mp conditionAlike with
    ⟨fault, failed, failed'⟩ | ⟨p, p', done, done', chosen⟩
  · rw [failed, failed']
    exact .inl ⟨fault, rfl, rfl⟩
  rcases behaviour_eq_iff.mp consequentAlike with
    ⟨fault, failed, failed'⟩ | ⟨q, q', ran, ran', agree⟩
  · rw [done, done', failed, failed']
    exact .inl ⟨fault, rfl, rfl⟩
  rcases behaviour_eq_iff.mp alternativeAlike with
    ⟨fault, failed, failed'⟩ | ⟨r, r', built, built', same⟩
  · rw [done, done', ran, ran', failed, failed']
    exact .inl ⟨fault, rfl, rfl⟩
  · rw [done, done', ran, ran', built, built']
    refine .inr ⟨_, _, rfl, rfl, fun case inside => ?_⟩
    rw [Expr.eval, Expr.eval, chosen case inside, agree case inside, same case inside]

/-- The behaviour of a node depends on its operands through their behaviours only. -/
theorem behaviour_node_congr (op : Op) {operands others : List Candidate}
    (alike : operands.map (·.behaviour examples) = others.map (·.behaviour examples)) :
    (node op operands).behaviour examples = (node op others).behaviour examples := by
  have counted : operands.length = others.length := by
    simpa only [List.length_map] using congrArg List.length alike
  rcases op.form_cases with ⟨form, rfl⟩ | rfl | rfl
  · by_cases few : operands.length < 2
    · rw [behaviour, behaviour, compile_binary_of_length_lt form few,
        compile_binary_of_length_lt form (counted ▸ few)]
    · obtain ⟨left, operands, rfl⟩ :=
        List.exists_cons_of_length_pos (show 0 < operands.length by omega)
      rw [List.length_cons] at few
      obtain ⟨right, rest, rfl⟩ :=
        List.exists_cons_of_length_pos (show 0 < operands.length by omega)
      obtain ⟨left', others, rfl, leftAlike, alike⟩ := List.map_eq_cons_iff.mp alike.symm
      obtain ⟨right', rest', rfl, rightAlike, _⟩ := List.map_eq_cons_iff.mp alike
      exact behaviour_binary_congr form leftAlike.symm rightAlike.symm
  · match operands, others, alike with
    | [], [], _ => rfl
    | left :: rest, right :: rest', alike =>
      exact behaviour_not_congr (List.cons.inj alike).1
  · match operands, others, alike with
    | [], [], _ => rfl
    | [_], [_], _ => rfl
    | [_, _], [_, _], _ => rfl
    | condition :: consequent :: alternative :: rest,
        condition' :: consequent' :: alternative' :: rest', alike =>
      simp only [List.map_cons, List.cons.injEq] at alike
      exact behaviour_ite_congr alike.1 alike.2.1 alike.2.2.1

end Candidate

namespace Expr

variable {examples : List Example} {program : Expr}

/-- The output vector lists the values, when there is one on every example. -/
theorem outputs_eq_ok_iff {vector : List Value} : program.outputs examples = .ok vector ↔
    examples.map (fun case => program.eval case.input) = vector.map .ok :=
  mapM_eq_ok_iff_map_eq

/-- The mask has one bit per example, which says whether the value there is the expected one. -/
theorem mask_eq_ok_iff {mask : Mask} : program.mask examples = .ok mask ↔
    List.Forall₂ (fun case bit => ∃ value, program.eval case.input = .ok value ∧
      decide (value = case.output) = bit) examples mask.bits := by
  obtain ⟨bits⟩ := mask
  simp only [Expr.mask, bind_eq_ok_iff, pure_eq_ok, Except.ok.injEq, Mask.mk.injEq,
    exists_eq_right, mapM_eq_ok_iff]

/-- Two programs that agree on every example have the same verdict. -/
theorem isCorrect_congr {other : Expr}
    (agree : ∀ case ∈ examples, program.eval case.input = other.eval case.input) :
    program.isCorrect examples = other.isCorrect examples := by
  induction examples with
  | nil => rfl
  | cons case examples ih =>
    rw [isCorrect, isCorrect, agree case List.mem_cons_self,
      ih fun later inside => agree later (List.mem_cons_of_mem case inside)]

/-- A program with an output vector is correct exactly when its outputs are the expected
ones. -/
theorem isCorrect_of_outputs {vector : List Value}
    (returned : program.outputs examples = .ok vector) :
    program.isCorrect examples = .ok (decide (vector = examples.map Example.output)) := by
  rw [outputs, mapM_eq_ok_iff] at returned
  induction returned with
  | nil => rfl
  | @cons case value examples vector evaluated _ ih =>
    rw [isCorrect, evaluated, ok_bind, List.map_cons]
    by_cases right : value = case.output
    · rw [if_pos right, ih]
      simp [right]
    · rw [if_neg right]
      simp [right]

/-- A verdict of correctness is reached only with the expected value on every example. -/
theorem outputs_of_isCorrect (correct : program.isCorrect examples = .ok true) :
    program.outputs examples = .ok (examples.map Example.output) := by
  rw [outputs, mapM_eq_ok_iff, List.forall₂_map_right_iff, List.forall₂_same]
  induction examples with
  | nil => simp
  | cons case examples ih =>
    rw [isCorrect, bind_eq_ok_iff] at correct
    obtain ⟨value, evaluated, rest⟩ := correct
    by_cases right : value = case.output
    · rw [if_pos right] at rest
      rw [List.forall_mem_cons]
      exact ⟨right ▸ evaluated, ih rest⟩
    · rw [if_neg right] at rest
      cases rest

end Expr

namespace Candidate

variable {examples : List Example} {candidate left right : Candidate}

/-- The output vector of a candidate lists the values of its behaviour. -/
theorem outputs_eq_ok_iff {vector : List Value} : candidate.outputs examples = .ok vector ↔
    candidate.behaviour examples = .ok (vector.map .ok) := by
  simp only [outputs, behaviour, bind_eq_ok_iff, Expr.outputs_eq_ok_iff, pure_eq_ok,
    Except.ok.injEq]

/-- Candidates with one output vector have one behaviour. -/
theorem behaviour_eq_of_outputs {vector : List Value}
    (returned : left.outputs examples = .ok vector)
    (returned' : right.outputs examples = .ok vector) :
    left.behaviour examples = right.behaviour examples := by
  rw [outputs_eq_ok_iff.mp returned, outputs_eq_ok_iff.mp returned']

/-- Candidates of one behaviour return one output vector, or fault alike. -/
theorem outputs_congr (alike : left.behaviour examples = right.behaviour examples) :
    left.outputs examples = right.outputs examples := by
  rw [outputs, outputs]
  rcases behaviour_eq_iff.mp alike with ⟨fault, failed, failed'⟩ | ⟨p, p', done, done', agree⟩
  · rw [failed, failed', error_bind]
  · rw [done, done', ok_bind, ok_bind]
    exact mapM_congr agree

/-- Candidates of one behaviour have the same verdict. -/
theorem isCorrect_congr (alike : left.behaviour examples = right.behaviour examples) :
    left.isCorrect examples = right.isCorrect examples := by
  rw [isCorrect, isCorrect]
  rcases behaviour_eq_iff.mp alike with ⟨fault, failed, failed'⟩ | ⟨p, p', done, done', agree⟩
  · rw [failed, failed', error_bind]
  · rw [done, done', ok_bind, ok_bind]
    exact Expr.isCorrect_congr agree

/-- A candidate with an output vector is correct exactly when its outputs are the expected
ones. -/
theorem isCorrect_of_outputs {vector : List Value}
    (returned : candidate.outputs examples = .ok vector) :
    candidate.isCorrect examples = .ok (decide (vector = examples.map Example.output)) := by
  obtain ⟨program, compiled, returned⟩ := bind_eq_ok_iff.mp returned
  rw [isCorrect, compiled, ok_bind, Expr.isCorrect_of_outputs returned]

end Candidate

namespace Grammar

variable {grammar : Grammar} {examples : List Example} {candidate left right : Candidate}

/-- A well-typed candidate has an output vector, whose values are of its type. -/
theorem WellTyped.outputs (typed : grammar.WellTyped candidate)
    (bound : grammar.BoundBy examples) :
    ∃ vector, candidate.outputs examples = .ok vector ∧
      ∀ value ∈ vector, value.ty = candidate.ty := by
  obtain ⟨program, compiled, programTyped⟩ := typed.compile
  have each : ∀ case ∈ examples, ∃ value,
      program.eval case.input = .ok value ∧ value.ty = candidate.ty :=
    fun case inside => programTyped.eval (bound case inside)
  obtain ⟨vector, all⟩ := exists_mapM_eq_ok fun case inside =>
    (each case inside).imp fun _ => And.left
  refine ⟨vector, by rw [Candidate.outputs, compiled, ok_bind]; exact all, ?_⟩
  intro value inside
  obtain ⟨case, given, evaluated⟩ := exists_of_mem_mapM all inside
  obtain ⟨result, returned, kind⟩ := each case given
  rw [returned] at evaluated
  exact Except.ok.inj evaluated ▸ kind

/-- A well-typed candidate has a mask. -/
theorem WellTyped.exists_mask (typed : grammar.WellTyped candidate)
    (bound : grammar.BoundBy examples) : ∃ mask, candidate.mask examples = .ok mask := by
  obtain ⟨program, compiled, programTyped⟩ := typed.compile
  have each : ∀ case ∈ examples, ∃ bit, (do
      return decide ((← program.eval case.input) = case.output)) = Except.ok (ε := Fault) bit := by
    intro case inside
    obtain ⟨value, evaluated, _⟩ := programTyped.eval (bound case inside)
    exact ⟨_, by rw [evaluated]; rfl⟩
  obtain ⟨bits, all⟩ := exists_mapM_eq_ok each
  exact ⟨⟨bits⟩, by rw [Candidate.mask, compiled, ok_bind, Expr.mask, all]; rfl⟩

/-- On at least one example the behaviour of a well-typed candidate shows its type. -/
theorem WellTyped.ty_eq (typed : grammar.WellTyped left) (other : grammar.WellTyped right)
    (bound : grammar.BoundBy examples) (nonempty : examples ≠ [])
    (alike : left.behaviour examples = right.behaviour examples) : left.ty = right.ty := by
  obtain ⟨vector, returned, kind⟩ := typed.outputs bound
  obtain ⟨vector', returned', kind'⟩ := other.outputs bound
  have vectors : vector = vector' := by
    apply Except.ok.inj (ε := Fault)
    rw [← returned, Candidate.outputs_congr alike, returned']
  obtain ⟨program, compiled, outputs⟩ := bind_eq_ok_iff.mp returned
  have counted : examples.length = vector.length := (mapM_eq_ok_iff.mp outputs).length_eq
  have positive : 0 < vector.length := counted ▸ List.length_pos_iff.mpr nonempty
  have first : vector[0] ∈ vector := List.getElem_mem positive
  rw [← kind _ first, kind' _ (vectors ▸ first)]

end Grammar

end ProgramSynthesis
