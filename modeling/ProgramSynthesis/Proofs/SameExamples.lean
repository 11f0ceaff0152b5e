import ProgramSynthesis.Proofs.Marks
import ProgramSynthesis.Proofs.Levels

/-!
# Searches over the same examples

An enumerative search asks of its examples only which candidates behave alike on all of them and
which are correct on all of them. Neither depends on the order of the examples or on how often
one occurs, so over the same examples the search takes the same steps.
-/

namespace ProgramSynthesis

/-- Whether two examples ask for one output at inputs of one view. -/
def Example.Alike (case other : Example) : Prop :=
  (∀ name, case.input.get? name = other.input.get? name) ∧ case.output = other.output

/-- Whether two lists hold the same examples, in any order and however often. -/
structure SameExamples (examples others : List Example) : Prop where
  /-- Each example of the first list is like one of the second. -/
  forward : ∀ case ∈ examples, ∃ other ∈ others, case.Alike other
  /-- Each example of the second list is like one of the first. -/
  backward : ∀ other ∈ others, ∃ case ∈ examples, case.Alike other

namespace Example.Alike

variable {case other : Example}

/-- An example is like itself. -/
theorem refl (case : Example) : case.Alike case := ⟨fun _ => rfl, rfl⟩

/-- Programs have one value on examples that are alike. -/
theorem eval_eq (alike : case.Alike other) (program : Expr) :
    program.eval case.input = program.eval other.input := program.eval_congr alike.1

/-- Examples that are alike bind the same names. -/
theorem bindsAll_iff (alike : case.Alike other) (names : List String) :
    case.input.BindsAll names ↔ other.input.BindsAll names := by
  refine forall₂_congr fun name _ => ?_
  rw [Env.binds, Env.binds, alike.1 name]

end Example.Alike

namespace SameExamples

variable {examples others : List Example} {left right : Candidate}

/-- Lists with the same members hold the same examples. -/
theorem of_mem_iff (members : ∀ case, case ∈ examples ↔ case ∈ others) :
    SameExamples examples others :=
  ⟨fun case inside => ⟨case, (members case).mp inside, .refl case⟩,
    fun other inside => ⟨other, (members other).mpr inside, .refl other⟩⟩

/-- What does not tell examples that are alike apart is true of all examples of two lists or of
neither. -/
theorem forall_iff {property : Example → Prop} (same : SameExamples examples others)
    (alike : ∀ case other, case.Alike other → (property case ↔ property other)) :
    (∀ case ∈ examples, property case) ↔ ∀ other ∈ others, property other := by
  constructor
  · intro all other inside
    obtain ⟨case, within, like⟩ := same.backward other inside
    exact (alike case other like).mp (all case within)
  · intro all case inside
    obtain ⟨other, within, like⟩ := same.forward case inside
    exact (alike case other like).mpr (all other within)

/-- The same examples stay the same under a change that does not tell those alike apart. -/
theorem map {change : Example → Example} (same : SameExamples examples others)
    (alike : ∀ case other, case.Alike other → (change case).Alike (change other)) :
    SameExamples (examples.map change) (others.map change) := by
  constructor
  · intro changed inside
    obtain ⟨case, within, rfl⟩ := List.mem_map.mp inside
    obtain ⟨other, there, like⟩ := same.forward case within
    exact ⟨change other, List.mem_map_of_mem there, alike case other like⟩
  · intro changed inside
    obtain ⟨other, within, rfl⟩ := List.mem_map.mp inside
    obtain ⟨case, there, like⟩ := same.backward other within
    exact ⟨change case, List.mem_map_of_mem there, alike case other like⟩

/-- The same examples bind the same names. -/
theorem boundBy {grammar : Grammar} (same : SameExamples examples others)
    (bound : grammar.BoundBy examples) : grammar.BoundBy others :=
  (same.forall_iff fun _ _ like => like.bindsAll_iff grammar.names).mp bound

/-- Candidates behave alike on the same examples. -/
theorem behaviour_eq_iff (same : SameExamples examples others) :
    left.behaviour examples = right.behaviour examples ↔
      left.behaviour others = right.behaviour others := by
  rw [Candidate.behaviour_eq_iff, Candidate.behaviour_eq_iff]
  have agree : ∀ first second : Expr,
      (∀ case ∈ examples, first.eval case.input = second.eval case.input) ↔
        ∀ case ∈ others, first.eval case.input = second.eval case.input := fun first second =>
    same.forall_iff fun _ _ like => by rw [like.eval_eq first, like.eval_eq second]
  simp only [agree]

/-- Candidates are correct on the same examples. -/
theorem solves_eq (same : SameExamples examples others) (candidate : Candidate) :
    candidate.solves examples = candidate.solves others := by
  have right : ∀ program : Expr, program.isCorrect examples = .ok true ↔
      program.isCorrect others = .ok true := by
    intro program
    rw [Expr.isCorrect_eq_true_iff, Expr.isCorrect_eq_true_iff]
    exact same.forall_iff fun _ _ like => by rw [like.eval_eq program, like.2]
  rw [Candidate.solves, Candidate.solves, Candidate.isCorrect, Candidate.isCorrect,
    decide_eq_decide, bind_eq_ok_iff, bind_eq_ok_iff]
  exact exists_congr fun program => and_congr_right fun _ => right program

variable {space : SearchSpace} {pool : List Candidate} {poolLimit : Nat} {counters : Counters}

/-- A level keeps the same candidates over the same examples. -/
theorem advance_eq (same : SameExamples examples others) (pool : List Candidate) :
    space.advance examples pool = space.advance others pool :=
  firsts_congr fun _ _ _ _ => same.behaviour_eq_iff

/-- A level is the same over the same examples. -/
theorem growLevel_eq (same : SameExamples examples others)
    (typed : space.grammar.TypedPool pool) (bound : space.grammar.BoundBy examples) :
    growLevel space examples poolLimit pool counters =
      growLevel space others poolLimit pool counters := by
  rw [SearchSpace.growLevel_eq typed bound, SearchSpace.growLevel_eq typed (same.boundBy bound),
    same.advance_eq]

/-- Levels are the same over the same examples. -/
theorem growLevels_eq {rounds : Nat} (same : SameExamples examples others)
    (typed : space.grammar.TypedPool pool) (bound : space.grammar.BoundBy examples) :
    growLevels space examples poolLimit rounds pool counters =
      growLevels space others poolLimit rounds pool counters := by
  induction rounds generalizing pool counters with
  | zero => rfl
  | succ rounds ih =>
    rw [growLevels, growLevels, ← same.growLevel_eq typed bound]
    apply bind_congr_of_ok
    rintro ⟨next, later⟩ grown
    cases next with
    | none => rfl
    | some next => exact ih (SearchSpace.typedPool_of_growLevel typed bound grown)

/-- The first correct candidate is the same over the same examples, and so are the checks. -/
theorem firstCorrect_eq (same : SameExamples examples others)
    (typed : space.grammar.TypedPool pool) (bound : space.grammar.BoundBy examples) :
    firstCorrect examples pool counters = firstCorrect others pool counters := by
  have solves : (fun candidate : Candidate => candidate.solves examples) =
      fun candidate => candidate.solves others := funext same.solves_eq
  have checks : SearchSpace.checksOf examples pool = SearchSpace.checksOf others pool := by
    simp only [SearchSpace.checksOf, same.solves_eq]
  rw [SearchSpace.firstCorrect_eq typed bound,
    SearchSpace.firstCorrect_eq typed (same.boundBy bound), solves, checks]

/-- A search over levels is the same over the same examples. -/
theorem searchLevels_eq {rounds : Nat} (same : SameExamples examples others)
    (typed : space.grammar.TypedPool pool) (bound : space.grammar.BoundBy examples) :
    searchLevels space examples poolLimit rounds pool counters =
      searchLevels space others poolLimit rounds pool counters := by
  induction rounds generalizing pool counters with
  | zero => rfl
  | succ rounds ih =>
    rw [searchLevels, searchLevels, ← same.growLevel_eq typed bound]
    apply bind_congr_of_ok
    rintro ⟨next, later⟩ grown
    cases next with
    | none => rfl
    | some next =>
      have advanced := SearchSpace.typedPool_of_growLevel typed bound grown
      simp only [same.firstCorrect_eq advanced bound]
      apply bind_congr_of_ok
      rintro ⟨found, counted⟩ _
      cases found with
      | none => exact ih advanced
      | some found => rfl

/-- An enumerative search is the same over the same examples. -/
theorem enumerativeSearch_eq {maxLevel : Nat} (same : SameExamples examples others)
    (bound : space.grammar.BoundBy examples) :
    enumerativeSearch space examples maxLevel poolLimit =
      enumerativeSearch space others maxLevel poolLimit :=
  same.searchLevels_eq (Grammar.typedPool_terminals space.grammar) bound

end SameExamples

end ProgramSynthesis
