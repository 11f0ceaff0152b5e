import ProgramSynthesis.Proofs.Picks

/-!
# Nested conditionals

What a run makes of its pieces once they are picked. Each further piece becomes the alternative
of a conditional around the program so far. The condition is what a search finds for the
examples that the pieces so far solve, so it depends on the union of their masks and on nothing
else about them, and each merge counts one such search.
-/

namespace ProgramSynthesis

/-- A program inside one conditional after the other. Each branch is the condition of its
conditional and the alternative to what is inside. -/
def Expr.nest (inner : Expr) (branches : List (Expr × Expr)) : Expr :=
  branches.foldl (fun merged branch => .ite branch.1 merged branch.2) inner

section

variable {config : SearchConfig} {grammar : Grammar} {examples : List Example}
  {scored : List Scored} {counters later : Counters}

/-- A merge counts one search for a condition. -/
theorem separators_of_unify {first second : Piece} {result : Option Piece}
    (bound : grammar.BoundBy examples)
    (unified : unify config grammar examples first second counters = .ok ⟨result, later⟩) :
    later.separators = counters.separators + 1 := by
  obtain ⟨found, recorded, searched, counted, summed, _⟩ := exists_search_of_unify unified
  have labelled : (config.separatorSpace grammar).grammar.BoundBy
    (separatorExamples examples first.mask) := boundBy_separatorExamples bound first.mask
  obtain ⟨_, _, part⟩ := (SearchSpace.enumerativeSearch_delivers labelled
    (Nat.le_max_left _ _) (Nat.le_max_right _ _)).of_ok searched
  have none : found.counters.separators = 0 := Nat.le_zero.mp part.separators_le
  rw [Counters.eq_of_absorb summed, Counters.eq_of_recordSeparator counted]
  simp only [none, Nat.add_zero]

namespace Stage

/-- The next piece is merged, and the run goes on with the result if there is one. -/
theorem run_unifying_cons (merged piece : Piece) (rest : List Piece) :
    (unifying merged (piece :: rest)).run config grammar examples scored counters trivial = (do
      match ← unify config grammar examples merged piece counters with
      | ⟨none, later⟩ => return ⟨none, later⟩
      | ⟨some joined, later⟩ =>
        (unifying joined rest).run config grammar examples scored later trivial) := by
  cases unified : unify config grammar examples merged piece counters with
  | error fault =>
    apply run_eq_of_fault
    rw [step, unified, error_bind]
  | ok report =>
    obtain ⟨result, later⟩ := report
    cases result with
    | none =>
      apply run_eq_of_stop
      rw [step, unified]
      rfl
    | some joined =>
      apply run_eq_of_next
      rw [step, unified]
      rfl

/-- When no piece waits the merged piece is checked once more and its program returned. -/
theorem run_unifying_nil (merged : Piece) :
    (unifying merged []).run config grammar examples scored counters trivial =
      if merged.mask.isFull then do
        if ← merged.program.isCorrect examples then
          return ⟨some merged.program, counters⟩
        else
          .error (.wrongOnCover merged.program)
      else
        .error .uncovered := by
  have finished : (unifying merged []).run config grammar examples scored counters trivial =
      (done merged).run config grammar examples scored counters trivial := by
    apply run_eq_of_next
    rfl
  rw [finished]
  by_cases full : merged.mask.isFull = true
  · rw [if_pos full]
    cases verdict : merged.program.isCorrect examples with
    | error fault =>
      apply run_eq_of_fault
      rw [step, if_pos full, verdict, error_bind]
    | ok correct =>
      cases correct with
      | true =>
        apply run_eq_of_stop
        rw [step, if_pos full, verdict]
        rfl
      | false =>
        apply run_eq_of_fault
        rw [step, if_pos full, verdict]
        rfl
  · rw [if_neg full]
    apply run_eq_of_fault
    rw [step, if_neg full]

/-- A run that merges the waiting pieces to the end returns a correct program: the one merged
before inside one conditional for each piece that waited, whose condition is the one found for
the examples of the pieces before that piece. -/
theorem nested_of_run (bound : grammar.BoundBy examples) {merged : Piece}
    {folded rest : List Piece} {program : Expr}
    (union : Mask.unionAll examples.length (folded.map Piece.mask) = .ok merged.mask)
    (ran : (unifying merged rest).run config grammar examples scored counters trivial =
      .ok ⟨some program, later⟩) :
    program.isCorrect examples = .ok true ∧
    later.separators = counters.separators + rest.length ∧
    ∃ conditions : List Expr, conditions.length = rest.length ∧
      program = merged.program.nest (conditions.zip (rest.map Piece.program)) ∧
      ∀ index condition, conditions[index]? = some condition → ∃ mask,
        Mask.unionAll examples.length ((folded ++ rest.take index).map Piece.mask) = .ok mask ∧
        conditionFor config grammar examples mask = .ok (some condition) := by
  induction rest generalizing merged folded counters with
  | nil =>
    rw [run_unifying_nil] at ran
    split at ran
    · obtain ⟨verdict, correct, ran⟩ := bind_eq_ok_iff.mp ran
      cases verdict with
      | true =>
        cases ran
        exact ⟨correct, rfl, [], rfl, rfl, by simp⟩
      | false => cases ran
    · cases ran
  | cons piece rest ih =>
    rw [run_unifying_cons] at ran
    obtain ⟨⟨result, counted⟩, unified, ran⟩ := bind_eq_ok_iff.mp ran
    cases result with
    | none => cases ran
    | some joined =>
      obtain ⟨condition, known, both, nested⟩ := conditionFor_of_unify unified
      have further : Mask.unionAll examples.length ((folded ++ [piece]).map Piece.mask) =
          .ok joined.mask := by
        rw [List.map_append, List.map_singleton, Mask.unionAll_append_singleton, union, ok_bind,
          both]
      obtain ⟨correct, searches, conditions, each, same, found⟩ := ih further ran
      refine ⟨correct, ?_, condition :: conditions, congrArg Nat.succ each, ?_, ?_⟩
      · rw [searches, separators_of_unify bound unified, List.length_cons, Nat.add_assoc,
          Nat.add_comm 1]
      · rw [same, nested]
        rfl
      · intro index other position
        cases index with
        | zero =>
          cases position
          rw [List.take_zero, List.append_nil]
          exact ⟨merged.mask, union, known⟩
        | succ index =>
          obtain ⟨mask, joins, searched⟩ := found index other position
          rw [List.append_assoc, List.singleton_append] at joins
          exact ⟨mask, joins, searched⟩

/-- A run that returns a program has covered the examples by the pieces it picked last, and the
program is a correct nest of these pieces: the first inside one conditional for each other
piece. -/
theorem FinalPicks.nested {start : Counters} {pieces : List Piece} {uncovered : Mask}
    {program : Expr} (bound : grammar.BoundBy examples) (nonempty : examples ≠ [])
    (masked : ∀ entry ∈ scored, entry.candidate.mask examples = .ok entry.mask)
    (final : FinalPicks config grammar examples scored start pieces uncovered)
    (ran : (initial examples).run config grammar examples scored start (exact_initial examples) =
      .ok ⟨some program, later⟩) :
    uncovered.count = 0 ∧ program.isCorrect examples = .ok true ∧
    ∃ first others, pieces = first :: others ∧
      later.separators = start.separators + others.length ∧
      ∃ conditions : List Expr, conditions.length = others.length ∧
        program = first.program.nest (conditions.zip (others.map Piece.program)) ∧
        ∀ index condition, conditions[index]? = some condition → ∃ mask,
          Mask.unionAll examples.length ((pieces.take (index + 1)).map Piece.mask) = .ok mask ∧
          conditionFor config grammar examples mask = .ok (some condition) := by
  by_cases covers : uncovered.count = 0
  · obtain ⟨first, others, rfl, _, same⟩ := final.run_of_covered nonempty masked covers
    rw [same] at ran
    have exact := (final.covering masked covers).exact first List.mem_cons_self
    have union : Mask.unionAll examples.length ([first].map Piece.mask) = .ok first.mask :=
      Mask.unionAll_singleton (Expr.length_of_mask exact)
    obtain ⟨correct, searches, nests⟩ := nested_of_run bound union ran
    exact ⟨covers, correct, first, others, rfl, searches, nests⟩
  · rw [final.run_of_uncovered covers] at ran
    cases ran

end Stage

/-- A search that returns a program has scored the integer programs of its cover pool, picked
pieces until they cover the examples, and nested them. -/
theorem exists_finalPicks_of_unificationSearch {program : Expr}
    (bound : grammar.BoundBy examples)
    (searched : unificationSearch config grammar examples = .ok ⟨some program, later⟩) :
    ∃ scored start pieces uncovered,
      score config grammar examples .zero = .ok ⟨some scored, start⟩ ∧
      Stage.FinalPicks config grammar examples scored start pieces uncovered ∧
      (Stage.initial examples).run config grammar examples scored start
        (Stage.exact_initial examples) = .ok ⟨some program, later⟩ := by
  obtain ⟨⟨result, start⟩, scoring, ran⟩ := bind_eq_ok_iff.mp searched
  cases result with
  | none => cases ran
  | some scored =>
    obtain ⟨pieces, left, final, _⟩ := Stage.exists_finalPicks
      (fun entry inside => (wellTyped_of_score bound scoring inside).1)
      (fun entry inside => mask_of_score scoring inside) .initial
    exact ⟨scored, start, pieces, left, scoring, final, ran⟩

end

namespace Smaller

/-- The smaller of two numbers, chosen by their order. -/
def program : Expr := .ite (.binary .lt (.var "x") (.var "y")) (.var "x") (.var "y")

/-- The two variables have been checked, and the candidates of one level for a condition. -/
def finish : Counters := ⟨1, 6, 6, 6, 9, 1⟩

/-- One level of growth finds the condition for the examples that the first variable solves. -/
theorem unify_eq : unify config grammar examples first second start =
    .ok ⟨some ⟨program, .full 2⟩, finish⟩ := by
  have bound : (config.separatorSpace grammar).grammar.BoundBy
    (separatorExamples examples first.mask) := by decide
  rw [unify, enumerativeSearch, show config.maxLevel = 2 + 1 from rfl, searchLevels,
    SearchSpace.growLevel_eq (Grammar.typedPool_terminals _) bound]
  decide +kernel

/-- The smaller of two numbers is found by unification. -/
theorem unificationSearch_eq : unificationSearch config grammar examples =
    .ok ⟨some program, finish⟩ := by
  have scoring : score config grammar examples .zero = .ok ⟨some scored, start⟩ := by
    decide +kernel
  obtain ⟨_, same⟩ := reached_unifying.run_eq
  simp only [unificationSearch, scoring, ok_bind, same, Stage.run_unifying_cons, unify_eq]
  rw [Stage.run_unifying_nil]
  decide +kernel

end Smaller

end ProgramSynthesis
