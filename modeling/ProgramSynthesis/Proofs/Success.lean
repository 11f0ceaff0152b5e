import ProgramSynthesis.Proofs.Completeness
import ProgramSynthesis.Proofs.Soundness

/-!
# When unification succeeds

A search by unification can fail in two places. Its picks leave an example uncovered when no
integer program within the cover rounds solves that example; nothing is lost by reduction, as
the program that is kept for a behaviour solves the same examples. Its merges end when no
condition within the levels tells the examples solved so far from the others. Where neither
happens the run returns the nest of its pieces.
-/

namespace ProgramSynthesis

/-- Whether the program of a piece is right on an example. -/
def Piece.solves (piece : Piece) (case : Example) : Bool :=
  decide (piece.program.eval case.input = .ok case.output)

/-- Some admissible integer program within the cover rounds is right on an example. -/
def SearchConfig.CanSolve (config : SearchConfig) (grammar : Grammar) (case : Example) : Prop :=
  ∃ candidate program, (config.space grammar).Admissible candidate ∧ candidate.ty = .int ∧
    candidate.height ≤ config.coverRounds ∧ candidate.compile = .ok program ∧
    program.eval case.input = .ok case.output

/-- Some admissible condition within the levels is true on the examples that one of the pieces
solves and false on the others. -/
def SearchConfig.CanSeparate (config : SearchConfig) (grammar : Grammar)
    (examples : List Example) (pieces : List Piece) : Prop :=
  ∃ candidate condition, (config.separatorSpace grammar).Admissible candidate ∧
    candidate.height ≤ config.maxLevel ∧ candidate.compile = .ok condition ∧
    ∀ case ∈ examples, condition.eval case.input = .ok (.bool (pieces.any (·.solves case)))

/-- No round of a search for a condition that a run makes exceeds the pool limit. -/
def SearchConfig.SeparatorsFit (config : SearchConfig) (grammar : Grammar)
    (examples : List Example) (scored : List Scored) (start : Counters) : Prop :=
  ∀ merged piece rest counters,
    Stage.Reached config grammar examples scored start (.unifying merged (piece :: rest))
      counters →
    (config.separatorSpace grammar).RoundsFit (separatorExamples examples merged.mask)
      config.poolLimit (SearchSpace.Solved (separatorExamples examples merged.mask))
      config.maxLevel grammar.terminals

section

variable {config : SearchConfig} {grammar : Grammar} {examples : List Example}
  {scored : List Scored} {start counters later : Counters} {pieces : List Piece}
  {uncovered : Mask}

/-- Merged pieces mark the examples that one of them solves. -/
theorem Merged.marks_eq {merged : Piece} {folded rest : List Piece} {index : Nat}
    {case : Example} (held : Merged examples merged folded rest)
    (found : examples[index]? = some case) :
    merged.mask.marks index = folded.any (·.solves case) := by
  have each : ∀ piece ∈ folded, (piece.mask.marks index = true ↔ piece.solves case = true) := by
    intro piece inside
    have exact := held.covering.exact piece (List.mem_append_left rest inside)
    rw [Expr.marks_iff_of_mask exact found, Piece.solves, decide_eq_true_eq]
  rw [Mask.marks_of_unionAll held.union, List.any_map, Bool.eq_iff_iff, List.any_eq_true,
    List.any_eq_true]
  exact exists_congr fun piece => and_congr_right fun inside => each piece inside

/-- The pieces merged so far can be separated exactly when some admissible condition is correct on
the examples of the search for one. -/
theorem Merged.canSeparate_iff {merged : Piece} {folded rest : List Piece}
    (held : Merged examples merged folded rest) :
    config.CanSeparate grammar examples folded ↔
      ∃ candidate, (config.separatorSpace grammar).Admissible candidate ∧
        candidate.height ≤ config.maxLevel ∧
        candidate.isCorrect (separatorExamples examples merged.mask) = .ok true := by
  have counted : merged.mask.length = examples.length := Expr.length_of_mask held.exact
  refine exists_congr fun candidate => ?_
  constructor
  · rintro ⟨condition, admitted, low, compiled, separates⟩
    refine ⟨admitted, low, ?_⟩
    rw [Candidate.isCorrect, compiled, ok_bind]
    apply Expr.isCorrect_of_forall
    intro case inside
    obtain ⟨index, labelled⟩ := List.mem_iff_getElem?.mp inside
    obtain ⟨original, bit, found, _, _⟩ := List.getElem?_zipWith_eq_some.mp labelled
    rw [getElem?_separatorExamples counted found] at labelled
    rw [← Option.some.inj labelled, held.marks_eq found]
    exact separates original (List.mem_of_getElem? found)
  · rintro ⟨admitted, low, correct⟩
    obtain ⟨condition, compiled, correct⟩ := bind_eq_ok_iff.mp correct
    refine ⟨condition, admitted, low, compiled, fun case inside => ?_⟩
    obtain ⟨index, found⟩ := List.mem_iff_getElem?.mp inside
    rw [← held.marks_eq found]
    exact eval_of_separates counted correct found

/-- A merge succeeds exactly when some admissible condition within the levels is correct. -/
theorem isSome_of_unify {first second : Piece} {result : Option Piece}
    (levels : 0 < config.maxLevel) (bound : grammar.BoundBy examples) (nonempty : examples ≠ [])
    (counted : first.mask.length = examples.length)
    (fit : (config.separatorSpace grammar).RoundsFit (separatorExamples examples first.mask)
      config.poolLimit (SearchSpace.Solved (separatorExamples examples first.mask))
      config.maxLevel grammar.terminals)
    (unified : unify config grammar examples first second counters = .ok ⟨result, later⟩) :
    result.isSome = true ↔ ∃ candidate, (config.separatorSpace grammar).Admissible candidate ∧
      candidate.height ≤ config.maxLevel ∧
      candidate.isCorrect (separatorExamples examples first.mask) = .ok true := by
  have labelled : (config.separatorSpace grammar).grammar.BoundBy
    (separatorExamples examples first.mask) := boundBy_separatorExamples bound first.mask
  have asked : separatorExamples examples first.mask ≠ [] := by
    obtain ⟨case, rest, rfl⟩ := List.exists_cons_of_ne_nil nonempty
    have here := getElem?_separatorExamples counted
      (List.getElem?_cons_zero : (case :: rest)[0]? = some case)
    exact List.ne_nil_of_mem (List.mem_of_getElem? here)
  obtain ⟨found, recorded, searched, _, _, outcome⟩ := exists_search_of_unify unified
  obtain ⟨explored, _⟩ := (SearchSpace.enumerativeSearch_delivers labelled
    (Nat.le_max_left _ _) (Nat.le_max_right _ _)).of_ok searched
  have answered : result.isSome = found.result.isSome := by
    rcases outcome with ⟨failed, rfl⟩ | ⟨separator, condition, both, succeeded, _, _, rfl⟩
    · rw [failed]
      rfl
    · rw [succeeded]
      rfl
  rw [answered, explored]
  exact SearchSpace.explore_isSome_iff labelled asked levels fit

/-- Scores lose nothing by reduction: an admissible integer program within the cover rounds
behaves like a scored candidate. -/
theorem exists_scored_of_admissible (bound : grammar.BoundBy examples) (nonempty : examples ≠ [])
    (scoring : score config grammar examples .zero = .ok ⟨some scored, start⟩)
    {candidate : Candidate} (admitted : (config.space grammar).Admissible candidate)
    (integer : candidate.ty = .int) (low : candidate.height ≤ config.coverRounds) :
    ∃ entry ∈ scored, entry.candidate.behaviour examples = candidate.behaviour examples := by
  have spaceBound : (config.space grammar).grammar.BoundBy examples := bound
  have typed : (config.space grammar).grammar.TypedPool grammar.terminals :=
    Grammar.typedPool_terminals grammar
  obtain ⟨pool, climbed, poolTyped, selected, _⟩ := exists_climb_of_score bound scoring
  have fit : (config.space grammar).RoundsFit examples config.poolLimit (fun _ => False)
    config.coverRounds grammar.terminals := SearchSpace.roundsFit_of_climb spaceBound typed climbed
  obtain ⟨top, same, alike⟩ := SearchSpace.exists_climb spaceBound nonempty rfl typed typed fit
  obtain rfl : pool = top := Option.some.inj (climbed.symm.trans same)
  have grown := SearchSpace.mem_iterate_expand_iff.mpr ⟨admitted, low⟩
  obtain ⟨kept, member, behaves⟩ := List.mem_map.mp
    ((alike.mem_map_iff _).mpr (List.mem_map_of_mem grown))
  have kind : kept.ty = candidate.ty :=
    (poolTyped kept member).ty_eq admitted.wellTyped bound nonempty behaves
  have chosen : kept ∈ scored.map Scored.candidate := by
    rw [selected, List.mem_filter]
    exact ⟨member, decide_eq_true (kind.trans integer)⟩
  obtain ⟨entry, inside, rfl⟩ := List.mem_map.mp chosen
  exact ⟨entry, inside, behaves⟩

/-- When conditions have one level, its round alone has to fit the limit, whatever the examples. -/
theorem separatorsFit_of_one (one : config.maxLevel = 1) (bound : grammar.BoundBy examples)
    (small : (config.separatorSpace grammar).roundSize grammar.terminals ≤ config.poolLimit) :
    config.SeparatorsFit grammar examples scored start := by
  intro merged piece rest counters _
  have labelled : (config.separatorSpace grammar).grammar.BoundBy
    (separatorExamples examples merged.mask) := boundBy_separatorExamples bound merged.mask
  rw [one]
  exact SearchSpace.roundsFit_one labelled small

namespace Stage

/-- A run that merges pieces returns a program exactly when the pieces before each of those that
wait can be separated. -/
theorem isSome_of_run_unifying {merged : Piece} {folded rest : List Piece} {report : Report Expr}
    (levels : 0 < config.maxLevel) (bound : grammar.BoundBy examples) (nonempty : examples ≠ [])
    (fits : config.SeparatorsFit grammar examples scored start)
    (reached : Reached config grammar examples scored start (unifying merged rest) counters)
    (held : Merged examples merged folded rest)
    (ran : (unifying merged rest).run config grammar examples scored counters trivial =
      .ok report) :
    report.result.isSome = true ↔
      ∀ index < rest.length, config.CanSeparate grammar examples (folded ++ rest.take index) := by
  induction rest generalizing merged folded counters with
  | nil =>
    have full : merged.mask.isFull = true := held.mask_eq_full ▸ Mask.isFull_full _
    have correct := Expr.isCorrect_of_mask_full (held.mask_eq_full ▸ held.exact)
    rw [run_unifying_nil, if_pos full, correct, ok_bind] at ran
    cases ran
    exact ⟨fun _ index none => absurd none (Nat.not_lt_zero index), fun _ => rfl⟩
  | cons piece rest ih =>
    rw [run_unifying_cons] at ran
    obtain ⟨⟨result, later⟩, unified, ran⟩ := bind_eq_ok_iff.mp ran
    have separable := (isSome_of_unify levels bound nonempty (Expr.length_of_mask held.exact)
      (fits _ _ _ _ reached) unified).trans held.canSeparate_iff.symm
    cases result with
    | none =>
      cases ran
      refine ⟨nofun, fun all => ?_⟩
      have first := all 0 (Nat.succ_pos _)
      rw [List.take_zero, List.append_nil] at first
      exact separable.mpr first
    | some joined =>
      have stepped : (unifying merged (piece :: rest)).step config grammar examples scored
          counters = .ok (.next (unifying joined rest) later) := by
        rw [step, unified]
        rfl
      rw [ih (reached.step stepped) (held.append unified) ran]
      constructor
      · intro all index inside
        cases index with
        | zero =>
          rw [List.take_zero, List.append_nil]
          exact separable.mp rfl
        | succ index =>
          rw [List.take_succ_cons, ← List.singleton_append, ← List.append_assoc]
          exact all index (Nat.lt_of_succ_lt_succ inside)
      · intro all index inside
        rw [List.append_assoc, List.singleton_append, ← List.take_succ_cons]
        exact all (index + 1) (Nat.succ_lt_succ inside)

/-- The final picks cover the examples exactly when each of them can be solved. A scored candidate
that behaves like an admissible program solves what that solves. -/
theorem FinalPicks.covers_iff (bound : grammar.BoundBy examples) (nonempty : examples ≠ [])
    (scoring : score config grammar examples .zero = .ok ⟨some scored, start⟩)
    (final : FinalPicks config grammar examples scored start pieces uncovered) :
    uncovered.count = 0 ↔ ∀ case ∈ examples, config.CanSolve grammar case := by
  have masked : ∀ entry ∈ scored, entry.candidate.mask examples = .ok entry.mask :=
    fun entry inside => mask_of_score scoring inside
  rw [final.covers_iff_solves masked]
  constructor
  · intro solved case inside
    obtain ⟨entry, chosen, program, compiled, right⟩ := solved case inside
    obtain ⟨admitted, integer, low⟩ := admissible_of_score bound scoring chosen
    exact ⟨entry.candidate, program, admitted, integer, low, compiled, right⟩
  · intro solvable case inside
    obtain ⟨candidate, program, admitted, integer, low, compiled, right⟩ := solvable case inside
    obtain ⟨entry, chosen, alike⟩ :=
      exists_scored_of_admissible bound nonempty scoring admitted integer low
    obtain ⟨index, found⟩ := List.mem_iff_getElem?.mp inside
    have marked : entry.mask.marks index = true :=
      (Candidate.marks_iff_of_behaviour (masked entry chosen) alike compiled found).mpr right
    exact ⟨entry, chosen, (Candidate.marks_iff_solves (masked entry chosen) found).mp marked⟩

/-- A run returns a program exactly when each example can be solved and the pieces before each
but the first of the final picks can be separated. -/
theorem FinalPicks.isSome_iff (levels : 0 < config.maxLevel) (bound : grammar.BoundBy examples)
    (nonempty : examples ≠ [])
    (scoring : score config grammar examples .zero = .ok ⟨some scored, start⟩)
    (fits : config.SeparatorsFit grammar examples scored start)
    (final : FinalPicks config grammar examples scored start pieces uncovered)
    {report : Report Expr}
    (ran : (initial examples).run config grammar examples scored start (exact_initial examples) =
      .ok report) :
    report.result.isSome = true ↔ (∀ case ∈ examples, config.CanSolve grammar case) ∧
      ∀ count, 0 < count → count < pieces.length →
        config.CanSeparate grammar examples (pieces.take count) := by
  have masked : ∀ entry ∈ scored, entry.candidate.mask examples = .ok entry.mask :=
    fun entry inside => mask_of_score scoring inside
  rw [← final.covers_iff bound nonempty scoring]
  by_cases covers : uncovered.count = 0
  · obtain ⟨first, others, rfl, reached, same⟩ := final.run_of_covered nonempty masked covers
    have covering := final.covering masked covers
    have exact := covering.exact first List.mem_cons_self
    have held : Merged examples first [first] others :=
      ⟨covering, List.cons_ne_nil _ _, Mask.unionAll_singleton (Expr.length_of_mask exact), exact⟩
    rw [isSome_of_run_unifying levels bound nonempty fits reached held (same.symm.trans ran)]
    constructor
    · intro separable
      refine ⟨covers, fun count positive few => ?_⟩
      obtain ⟨index, rfl⟩ := Nat.exists_eq_add_one_of_ne_zero (Nat.ne_of_gt positive)
      exact separable index (Nat.lt_of_succ_lt_succ few)
    · rintro ⟨_, separable⟩ index inside
      exact separable (index + 1) (Nat.succ_pos _) (Nat.succ_lt_succ inside)
  · rw [final.run_of_uncovered covers] at ran
    cases ran
    exact ⟨nofun, fun both => absurd both.1 covers⟩

end Stage

end

/-- When unification succeeds. No round of the search for a cover, or of a search for a condition,
exceeds the limit. Then the search picks pieces greedily to the end of the picks, and returns a
program exactly when some admissible integer program within the cover rounds solves each example,
and, for each number of first pieces short of all, some admissible condition within the levels is
true on the examples that one of them solves and false on the others. The program that is returned
is the first piece inside one conditional for each other piece; its condition is that which is
found for the union of the masks of the pieces before, whatever their programs. Only if the bounds
reach the largest machine word may a counter overflow instead. -/
theorem unificationSearch_succeeds_iff (problem : Problem) (config : SearchConfig)
    (levels : 0 < config.maxLevel)
    (coverFits : (config.space problem.grammar).RoundsFit problem.examples config.poolLimit
      (fun _ => False) config.coverRounds problem.grammar.terminals)
    (separatorsFit : ∀ scored start,
      score config problem.grammar problem.examples .zero = .ok ⟨some scored, start⟩ →
      config.SeparatorsFit problem.grammar problem.examples scored start) :
    Delivers ((config.coverRounds + 1 + problem.examples.length * config.maxLevel) *
        max config.poolLimit problem.grammar.terminals.length)
      (unificationSearch config problem.grammar problem.examples) fun report =>
        ∃ scored start pieces uncovered,
          score config problem.grammar problem.examples .zero = .ok ⟨some scored, start⟩ ∧
          Stage.FinalPicks config problem.grammar problem.examples scored start pieces uncovered ∧
          (report.result.isSome = true ↔
            (∀ case ∈ problem.examples, config.CanSolve problem.grammar case) ∧
            ∀ count, 0 < count → count < pieces.length →
              config.CanSeparate problem.grammar problem.examples (pieces.take count)) ∧
          ∀ program, report.result = some program →
            ∃ first others, pieces = first :: others ∧
            ∃ conditions : List Expr, conditions.length = others.length ∧
              program = first.program.nest (conditions.zip (others.map Piece.program)) ∧
              ∀ index condition, conditions[index]? = some condition → ∃ mask,
                Mask.unionAll problem.examples.length
                  ((pieces.take (index + 1)).map Piece.mask) = .ok mask ∧
                conditionFor config problem.grammar problem.examples mask =
                  .ok (some condition) := by
  have bound := problem.boundBy
  have spaceBound : (config.space problem.grammar).grammar.BoundBy problem.examples := bound
  have typed : (config.space problem.grammar).grammar.TypedPool problem.grammar.terminals :=
    Grammar.typedPool_terminals problem.grammar
  refine (unificationSearch_delivers problem levels (Nat.le_max_left _ _) (Nat.le_max_right _ _)
    (Nat.le_succ _)).of_forall_ok fun report searched => ?_
  obtain ⟨⟨result, start⟩, scoring, ran⟩ := bind_eq_ok_iff.mp searched
  cases result with
  | none =>
    obtain ⟨top, climbed, _⟩ :=
      SearchSpace.exists_climb spaceBound problem.examples_ne_nil rfl typed typed coverFits
    rw [climb_eq_none_of_score bound scoring] at climbed
    cases climbed
  | some scored =>
    have masked : ∀ entry ∈ scored, entry.candidate.mask problem.examples = .ok entry.mask :=
      fun entry inside => mask_of_score scoring inside
    obtain ⟨pieces, uncovered, final, _⟩ := Stage.exists_finalPicks
      (fun entry inside => (wellTyped_of_score bound scoring inside).1) masked .initial
    refine ⟨scored, start, pieces, uncovered, scoring, final, ?_, ?_⟩
    · exact final.isSome_iff levels bound problem.examples_ne_nil scoring
        (separatorsFit scored start scoring) ran
    · intro program returned
      obtain ⟨answer, later⟩ := report
      obtain rfl : answer = some program := returned
      obtain ⟨_, _, first, others, same, _, nests⟩ :=
        final.nested bound problem.examples_ne_nil masked ran
      exact ⟨first, others, same, nests⟩

namespace Smaller

/-- The smaller of two numbers, as a problem. -/
def problem : Problem where
  grammar := grammar
  examples := examples
  examples_ne_nil := by decide
  terminals := by decide
  nodup := by decide
  binds := (firstMismatch?_eq_none_iff grammar.names examples).mp (by decide)

/-- One level for pieces, and one for the condition, which is enough. -/
def oneLevel : SearchConfig := { SearchConfig.standard with maxLevel := 1 }

/-- Whatever the examples, one level of conditions fits the limit. -/
theorem separatorsFit_oneLevel (scored : List Scored) (start : Counters) :
    oneLevel.SeparatorsFit grammar examples scored start :=
  separatorsFit_of_one rfl problem.boundBy (by decide +kernel)

/-- The smaller of two numbers is found if its pieces are there and can be separated. -/
theorem succeeds_oneLevel :
    0 < oneLevel.maxLevel ∧
    (oneLevel.space problem.grammar).RoundsFit problem.examples oneLevel.poolLimit
      (fun _ => False) oneLevel.coverRounds problem.grammar.terminals ∧
    (∀ scored start,
      score oneLevel problem.grammar problem.examples .zero = .ok ⟨some scored, start⟩ →
      oneLevel.SeparatorsFit problem.grammar problem.examples scored start) ∧
    Delivers ((oneLevel.coverRounds + 1 + problem.examples.length * oneLevel.maxLevel) *
        max oneLevel.poolLimit problem.grammar.terminals.length)
      (unificationSearch oneLevel problem.grammar problem.examples) fun report =>
        ∃ scored start pieces uncovered,
          score oneLevel problem.grammar problem.examples .zero = .ok ⟨some scored, start⟩ ∧
          Stage.FinalPicks oneLevel problem.grammar problem.examples scored start pieces
            uncovered ∧
          (report.result.isSome = true ↔
            (∀ case ∈ problem.examples, oneLevel.CanSolve problem.grammar case) ∧
            ∀ count, 0 < count → count < pieces.length →
              oneLevel.CanSeparate problem.grammar problem.examples (pieces.take count)) ∧
          ∀ program, report.result = some program →
            ∃ first others, pieces = first :: others ∧
            ∃ conditions : List Expr, conditions.length = others.length ∧
              program = first.program.nest (conditions.zip (others.map Piece.program)) ∧
              ∀ index condition, conditions[index]? = some condition → ∃ mask,
                Mask.unionAll problem.examples.length
                  ((pieces.take (index + 1)).map Piece.mask) = .ok mask ∧
                conditionFor oneLevel problem.grammar problem.examples mask =
                  .ok (some condition) := by
  have levels : 0 < oneLevel.maxLevel := by decide
  have coverFits : (oneLevel.space problem.grammar).RoundsFit problem.examples oneLevel.poolLimit
      (fun _ => False) oneLevel.coverRounds problem.grammar.terminals := by
    have bound : (oneLevel.space problem.grammar).grammar.BoundBy problem.examples :=
      problem.boundBy
    have small : (oneLevel.space problem.grammar).roundSize problem.grammar.terminals ≤
      oneLevel.poolLimit := by decide +kernel
    exact (SearchSpace.roundsFit_succ_iff (Grammar.typedPool_terminals problem.grammar) bound).mpr
      ⟨small, .inr trivial⟩
  have separatorsFit := fun scored start
    (_ : score oneLevel problem.grammar problem.examples .zero = .ok ⟨some scored, start⟩) =>
      separatorsFit_oneLevel scored start
  exact ⟨levels, coverFits, separatorsFit,
    unificationSearch_succeeds_iff problem oneLevel levels coverFits separatorsFit⟩

end Smaller

end ProgramSynthesis
