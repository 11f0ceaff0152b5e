import ProgramSynthesis.Proofs.Admissible
import ProgramSynthesis.Proofs.Nesting

/-!
# Soundness of synthesis

Whatever program a synthesis returns is correct on every example, well typed, and built from the
declared names and the listed literals. An admissible candidate compiles to such a program. The
pieces of a unification are such programs of integer type, and a condition must be a truth value,
because it returns one on an example; so every conditional that a run nests is well typed, and a
nest of pieces is an integer program.
-/

namespace ProgramSynthesis

namespace Expr

/-- An expression and all those inside it. -/
def subterms : Expr → List Expr
  | falsity => [falsity]
  | number value => [number value]
  | var name => [var name]
  | not operand => not operand :: operand.subterms
  | binary op left right => binary op left right :: (left.subterms ++ right.subterms)
  | ite condition consequent alternative =>
    ite condition consequent alternative ::
      (condition.subterms ++ (consequent.subterms ++ alternative.subterms))

variable {names : List String} {program part : Expr} {ty : Ty}

/-- Every expression inside a well-typed one is well typed. -/
theorem HasType.of_mem_subterms (typed : program.HasType names ty)
    (inside : part ∈ program.subterms) : ∃ kind, part.HasType names kind := by
  induction typed with
  | falsity =>
    rw [List.mem_singleton.mp inside]
    exact ⟨_, .falsity⟩
  | number value =>
    rw [List.mem_singleton.mp inside]
    exact ⟨_, .number value⟩
  | var declared =>
    rw [List.mem_singleton.mp inside]
    exact ⟨_, .var declared⟩
  | not operandTyped ih =>
    rcases List.mem_cons.mp inside with rfl | deeper
    · exact ⟨_, .not operandTyped⟩
    · exact ih deeper
  | binary leftTyped rightTyped leftIh rightIh =>
    rcases List.mem_cons.mp inside with rfl | deeper
    · exact ⟨_, .binary leftTyped rightTyped⟩
    · exact (List.mem_append.mp deeper).elim leftIh rightIh
  | ite conditionTyped consequentTyped alternativeTyped conditionIh consequentIh alternativeIh =>
    rcases List.mem_cons.mp inside with rfl | deeper
    · exact ⟨_, .ite conditionTyped consequentTyped alternativeTyped⟩
    · refine (List.mem_append.mp deeper).elim conditionIh fun arm => ?_
      exact (List.mem_append.mp arm).elim consequentIh alternativeIh

/-- A correct program of a type is asked for outputs of that type only. -/
theorem HasType.output_ty {examples : List Example} {case : Example}
    (typed : program.HasType names ty) (bound : case.input.BindsAll names)
    (correct : program.isCorrect examples = .ok true) (inside : case ∈ examples) :
    case.output.ty = ty := by
  obtain ⟨value, evaluated, kind⟩ := typed.eval bound
  rw [isCorrect_eq_true_iff.mp correct case inside] at evaluated
  rw [Except.ok.inj evaluated, kind]

end Expr

/-- The programs of a type that a grammar has the words for: well typed over its names, with no
literal that it does not list. -/
structure Grammar.Produces (grammar : Grammar) (program : Expr) (ty : Ty) : Prop where
  /-- The program has the type. -/
  typed : program.HasType grammar.names ty
  /-- Its literals are listed. -/
  listed : ∀ value, .number value ∈ program.subterms → value ∈ grammar.constants

namespace Grammar.Produces

variable {grammar : Grammar}

/-- A conditional between integer programs is an integer program. -/
theorem ite {condition consequent alternative : Expr}
    (first : grammar.Produces condition .bool) (second : grammar.Produces consequent .int)
    (third : grammar.Produces alternative .int) :
    grammar.Produces (.ite condition consequent alternative) .int := by
  refine ⟨.ite first.typed second.typed third.typed, fun value inside => ?_⟩
  rcases List.mem_cons.mp inside with same | deeper
  · cases same
  · refine (List.mem_append.mp deeper).elim (first.listed value) fun arm => ?_
    exact (List.mem_append.mp arm).elim (second.listed value) (third.listed value)

/-- A nest of integer programs is an integer program. -/
theorem nest {inner : Expr} {branches : List (Expr × Expr)} (program : grammar.Produces inner .int)
    (each : ∀ branch ∈ branches,
      grammar.Produces branch.1 .bool ∧ grammar.Produces branch.2 .int) :
    grammar.Produces (inner.nest branches) .int := by
  induction branches generalizing inner with
  | nil => exact program
  | cons branch branches ih =>
    obtain ⟨condition, alternative⟩ := each branch List.mem_cons_self
    exact ih (condition.ite program alternative) fun other inside =>
      each other (List.mem_cons_of_mem branch inside)

end Grammar.Produces

/-- A literal inside a compiled node is inside one of its compiled operands. -/
theorem Candidate.exists_operand_of_literal {op : Op} {operands : List Candidate} {program : Expr}
    {value : Int64} (compiled : (node op operands).compile = .ok program)
    (inside : .number value ∈ program.subterms) :
    ∃ operand ∈ operands, ∃ part, operand.compile = .ok part ∧ .number value ∈ part.subterms := by
  rcases op.form_cases with ⟨form, rfl⟩ | rfl | rfl
  · match operands with
    | [] | [_] =>
      rw [compile_binary_of_length_lt form (by simp)] at compiled
      cases compiled
    | left :: right :: rest =>
      rw [compile_binary] at compiled
      obtain ⟨first, leftCompiled, compiled⟩ := bind_eq_ok_iff.mp compiled
      obtain ⟨second, rightCompiled, compiled⟩ := bind_eq_ok_iff.mp compiled
      cases compiled
      rcases List.mem_append.mp ((List.mem_cons.mp inside).resolve_left nofun) with here | there
      · exact ⟨left, by simp, first, leftCompiled, here⟩
      · exact ⟨right, by simp, second, rightCompiled, there⟩
  · match operands with
    | [] => cases compiled
    | operand :: rest =>
      obtain ⟨part, operandCompiled, compiled⟩ := bind_eq_ok_iff.mp compiled
      cases compiled
      exact ⟨operand, by simp, part, operandCompiled, (List.mem_cons.mp inside).resolve_left nofun⟩
  · match operands with
    | [] | [_] | [_, _] => cases compiled
    | condition :: consequent :: alternative :: rest =>
      obtain ⟨first, conditionCompiled, compiled⟩ := bind_eq_ok_iff.mp compiled
      obtain ⟨second, consequentCompiled, compiled⟩ := bind_eq_ok_iff.mp compiled
      obtain ⟨third, alternativeCompiled, compiled⟩ := bind_eq_ok_iff.mp compiled
      cases compiled
      rcases List.mem_append.mp ((List.mem_cons.mp inside).resolve_left nofun) with here | arm
      · exact ⟨condition, by simp, first, conditionCompiled, here⟩
      · rcases List.mem_append.mp arm with here | there
        · exact ⟨consequent, by simp, second, consequentCompiled, here⟩
        · exact ⟨alternative, by simp, third, alternativeCompiled, there⟩

/-- An admissible candidate compiles to a program of its type over the grammar. -/
theorem SearchSpace.Admissible.produces {space : SearchSpace} {candidate : Candidate}
    {program : Expr} (admitted : space.Admissible candidate)
    (compiled : candidate.compile = .ok program) :
    space.grammar.Produces program candidate.ty := by
  obtain ⟨same, returned, typed⟩ := admitted.wellTyped.compile
  rw [compiled] at returned
  refine ⟨Except.ok.inj returned ▸ typed, fun value inside => ?_⟩
  clear typed returned
  induction admitted generalizing program with
  | var declared =>
    cases compiled
    cases List.mem_singleton.mp inside
  | number listed =>
    cases compiled
    cases List.mem_singleton.mp inside
    exact listed
  | falsity =>
    cases compiled
    cases List.mem_singleton.mp inside
  | node _ _ _ _ ih =>
    obtain ⟨operand, member, part, partCompiled, deeper⟩ :=
      Candidate.exists_operand_of_literal compiled inside
    exact ih operand member partCompiled deeper

section

variable {config : SearchConfig} {grammar : Grammar} {examples : List Example}
  {scored : List Scored} {start counters : Counters} {program : Expr}

/-- A scored candidate is an admissible integer program within the cover rounds. -/
theorem admissible_of_score {entry : Scored} (bound : grammar.BoundBy examples)
    (scoring : score config grammar examples .zero = .ok ⟨some scored, start⟩)
    (inside : entry ∈ scored) :
    (config.space grammar).Admissible entry.candidate ∧ entry.candidate.ty = .int ∧
      entry.candidate.height ≤ config.coverRounds := by
  obtain ⟨pool, climbed, _, selected, _⟩ := exists_climb_of_score bound scoring
  have chosen : entry.candidate ∈ pool.filter (fun candidate => candidate.ty = .int) :=
    selected ▸ List.mem_map_of_mem inside
  obtain ⟨member, integer⟩ := List.mem_filter.mp chosen
  obtain ⟨admitted, low⟩ := SearchSpace.admissible_of_climb climbed member
  exact ⟨admitted, of_decide_eq_true integer, low⟩

/-- What an enumerative search finds is admissible. -/
theorem SearchSpace.admissible_of_enumerativeSearch {space : SearchSpace}
    {maxLevel poolLimit : Nat} {report : Report Candidate} {found : Candidate}
    (bound : space.grammar.BoundBy examples)
    (searched : enumerativeSearch space examples maxLevel poolLimit = .ok report)
    (returned : report.result = some found) : space.Admissible found ∧ found.height ≤ maxLevel := by
  obtain ⟨explored, _⟩ := (enumerativeSearch_delivers bound (Nat.le_max_left _ _)
    (Nat.le_max_right _ _)).of_ok searched
  exact admissible_of_explore (explored.symm.trans returned)

/-- A condition that is found for a mask over the examples is a truth value. Some example asks the
condition for a truth value. -/
theorem produces_of_conditionFor {mask : Mask} {condition : Expr}
    (bound : grammar.BoundBy examples) (nonempty : examples ≠ [])
    (counted : mask.length = examples.length)
    (known : conditionFor config grammar examples mask = .ok (some condition)) :
    grammar.Produces condition .bool := by
  obtain ⟨found, separator, searched, outcome, compiled⟩ := exists_search_of_conditionFor known
  have labelled : (config.separatorSpace grammar).grammar.BoundBy
    (separatorExamples examples mask) := boundBy_separatorExamples bound mask
  obtain ⟨admitted, _⟩ := SearchSpace.admissible_of_enumerativeSearch labelled searched outcome
  have produced : grammar.Produces condition separator.ty := admitted.produces compiled
  obtain ⟨case, rest, rfl⟩ := List.exists_cons_of_ne_nil nonempty
  have asked := List.mem_of_getElem? (getElem?_separatorExamples counted
    (List.getElem?_cons_zero : (case :: rest)[0]? = some case))
  have kind : Ty.bool = separator.ty :=
    produced.typed.output_ty (labelled _ asked) (isCorrect_of_conditionFor known) asked
  exact kind ▸ produced

/-- A piece that is picked is an integer program. -/
theorem produces_of_drawnFrom {piece : Piece} (bound : grammar.BoundBy examples)
    (scoring : score config grammar examples .zero = .ok ⟨some scored, start⟩)
    (drawn : piece.DrawnFrom scored) : grammar.Produces piece.program .int := by
  obtain ⟨entry, inside, compiled, _⟩ := drawn
  obtain ⟨admitted, integer, _⟩ := admissible_of_score bound scoring inside
  exact integer ▸ admitted.produces compiled

/-- A program that the unification search returns is a correct integer program. -/
theorem produces_of_unificationSearch (bound : grammar.BoundBy examples)
    (nonempty : examples ≠ [])
    (searched : unificationSearch config grammar examples = .ok ⟨some program, counters⟩) :
    program.isCorrect examples = .ok true ∧ grammar.Produces program .int := by
  obtain ⟨scored, start, pieces, uncovered, scoring, final, ran⟩ :=
    exists_finalPicks_of_unificationSearch bound searched
  obtain ⟨_, correct, first, others, rfl, _, conditions, _, rfl, known⟩ :=
    final.nested bound nonempty (fun _ inside => mask_of_score scoring inside) ran
  have drawn := Stage.drawn_of_reached final.reached
  have produced : ∀ piece ∈ first :: others, grammar.Produces piece.program .int :=
    fun piece inside => produces_of_drawnFrom bound scoring (drawn piece inside)
  refine ⟨correct, (produced first List.mem_cons_self).nest fun branch inside => ?_⟩
  obtain ⟨here, there⟩ := List.of_mem_zip inside
  constructor
  · obtain ⟨index, position⟩ := List.mem_iff_getElem?.mp here
    obtain ⟨mask, union, searched⟩ := known index branch.1 position
    exact produces_of_conditionFor bound nonempty (Mask.length_of_unionAll union).1 searched
  · obtain ⟨piece, waiting, same⟩ := List.mem_map.mp there
    exact same ▸ produced piece (List.mem_cons_of_mem first waiting)

/-- A synthesis that returns a report has validated its inputs and searched. -/
theorem exists_problem_of_synthesize {strategy : Strategy} {names : List String}
    {constants : List Int64} {report : Report Expr}
    (returned : synthesize strategy config names constants examples = .ok (.ok report)) :
    ∃ problem : Problem, problem.grammar = ⟨names, constants⟩ ∧ problem.examples = examples ∧
      problem.solve config strategy = .ok report := by
  unfold synthesize at returned
  split at returned
  · cases returned
  · cases valid : Problem.validate names constants examples with
    | error error =>
      rw [valid] at returned
      cases returned
    | ok problem =>
      obtain ⟨grammar, given⟩ := Problem.parts_of_validate valid
      rw [valid] at returned
      obtain ⟨answer, solved, same⟩ := bind_eq_ok_iff.mp returned
      cases same
      exact ⟨problem, grammar, given, solved⟩

/-- A program that solves a problem is correct and over the grammar of the problem; found by
unification it is an integer program. -/
theorem Problem.produces_of_solve {problem : Problem} {strategy : Strategy}
    (solved : problem.solve config strategy = .ok ⟨some program, counters⟩) :
    program.isCorrect problem.examples = .ok true ∧
      ∃ ty, problem.grammar.Produces program ty ∧ (strategy = .unification → ty = .int) := by
  cases strategy with
  | enumerative =>
    obtain ⟨⟨result, spent⟩, searched, solved⟩ := bind_eq_ok_iff.mp solved
    cases result with
    | none => cases solved
    | some found =>
      obtain ⟨compiled, compiles, solved⟩ := bind_eq_ok_iff.mp solved
      cases solved
      have correct := isCorrect_of_enumerativeSearch searched rfl
      rw [Candidate.isCorrect, compiles, ok_bind] at correct
      have bound : (config.space problem.grammar).grammar.BoundBy problem.examples :=
        problem.boundBy
      obtain ⟨admitted, _⟩ := SearchSpace.admissible_of_enumerativeSearch bound searched rfl
      exact ⟨correct, found.ty, admitted.produces compiles, fun other => by cases other⟩
  | unification =>
    obtain ⟨correct, produced⟩ :=
      produces_of_unificationSearch problem.boundBy problem.examples_ne_nil solved
    exact ⟨correct, .int, produced, fun _ => rfl⟩

/-- Every returned program is sound. It evaluates on every example to the expected output. It is
well typed over the declared names, so each of its variables is declared, and each of its literals
is listed. Found by unification it is an integer program in which every conditional chooses
between integers by a truth value, and then every example expects an integer. Whatever the
strategy, all examples expect outputs of one type. -/
theorem synthesize_sound (strategy : Strategy) (config : SearchConfig) (names : List String)
    (constants : List Int64) (examples : List Example) (program : Expr) (counters : Counters)
    (returned : synthesize strategy config names constants examples =
      .ok (.ok ⟨some program, counters⟩)) :
    (∀ case ∈ examples, program.eval case.input = .ok case.output) ∧
    (∃ ty, program.HasType names ty) ∧
    (∀ name, .var name ∈ program.subterms → name ∈ names) ∧
    (∀ value, .number value ∈ program.subterms → value ∈ constants) ∧
    (strategy = .unification → program.HasType names .int ∧
      (∀ condition consequent alternative,
        .ite condition consequent alternative ∈ program.subterms →
          condition.HasType names .bool ∧ consequent.HasType names .int ∧
            alternative.HasType names .int) ∧
      ∀ case ∈ examples, case.output.ty = .int) ∧
    ∀ left ∈ examples, ∀ right ∈ examples, left.output.ty = right.output.ty := by
  obtain ⟨problem, same, rfl, solved⟩ := exists_problem_of_synthesize returned
  obtain ⟨correct, ty, ⟨typed, listed⟩, integer⟩ := problem.produces_of_solve solved
  have bound := problem.boundBy
  rw [same] at typed listed bound
  have outputs : ∀ case ∈ problem.examples, case.output.ty = ty := fun case inside =>
    typed.output_ty (bound case inside) correct inside
  refine ⟨Expr.isCorrect_eq_true_iff.mp correct, ⟨ty, typed⟩, ?_, listed, ?_, ?_⟩
  · intro name inside
    obtain ⟨_, kind⟩ := typed.of_mem_subterms inside
    cases kind with
    | var declared => exact declared
  · intro unified
    obtain rfl := integer unified
    refine ⟨typed, fun condition consequent alternative inside => ?_, outputs⟩
    obtain ⟨_, kind⟩ := typed.of_mem_subterms inside
    cases kind with
    | ite first second third => exact ⟨first, second, third⟩
  · intro left here right there
    rw [outputs left here, outputs right there]

end

namespace Smaller

/-- The examples of the smaller of two numbers are valid, and the search solves them. -/
theorem synthesize_eq : synthesize .unification config ["x", "y"] [] examples =
    .ok (.ok ⟨some program, finish⟩) := by
  obtain ⟨problem, valid⟩ : ∃ problem, Problem.validate ["x", "y"] [] examples = .ok problem := by
    unfold Problem.validate
    exact ⟨_, rfl⟩
  obtain ⟨same, given⟩ := Problem.parts_of_validate valid
  have searched : unificationSearch config ⟨["x", "y"], []⟩ examples =
    .ok ⟨some program, finish⟩ := unificationSearch_eq
  rw [synthesize, if_neg (by decide), valid]
  simp only [Problem.solve, same, given, searched, ok_bind]
  rfl

/-- The smaller of two numbers is an integer program that is right on both examples. -/
theorem program_sound :
    synthesize .unification config ["x", "y"] [] examples = .ok (.ok ⟨some program, finish⟩) ∧
    (∀ case ∈ examples, program.eval case.input = .ok case.output) ∧
    (∃ ty, program.HasType ["x", "y"] ty) ∧
    (∀ name, .var name ∈ program.subterms → name ∈ ["x", "y"]) ∧
    (∀ value, .number value ∈ program.subterms → value ∈ ([] : List Int64)) ∧
    (Strategy.unification = .unification → program.HasType ["x", "y"] .int ∧
      (∀ condition consequent alternative,
        .ite condition consequent alternative ∈ program.subterms →
          condition.HasType ["x", "y"] .bool ∧ consequent.HasType ["x", "y"] .int ∧
            alternative.HasType ["x", "y"] .int) ∧
      ∀ case ∈ examples, case.output.ty = .int) ∧
    ∀ left ∈ examples, ∀ right ∈ examples, left.output.ty = right.output.ty :=
  ⟨synthesize_eq, synthesize_sound .unification config ["x", "y"] [] examples program finish
    synthesize_eq⟩

end Smaller

end ProgramSynthesis
