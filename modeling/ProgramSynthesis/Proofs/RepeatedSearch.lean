import ProgramSynthesis.Proofs.Agreement
import ProgramSynthesis.Proofs.Repetitions
import ProgramSynthesis.Proofs.Success

/-!
# Searches without repetitions

A search over thinned literals and operators follows the search over all of them. Its pools are
the same after every level, and so are its picks and its conditions, which makes the answer the
same; its rounds are no larger, so it counts no more and returns whenever the other does. Before
the first level the pools themselves are thinned, which the picks do not see: an entry that is
repeated gains nothing over its first occurrence.
-/

namespace ProgramSynthesis

/-- Whether every count of a second search is at most that of a first. -/
structure Counters.Covers (counters others : Counters) : Prop where
  /-- The second search grows no more levels. -/
  levels_le : others.levels ≤ counters.levels
  /-- It adds no more candidates. -/
  grown_le : others.grown ≤ counters.grown
  /-- It keeps no more candidates. -/
  kept_le : others.kept ≤ counters.kept
  /-- It checks no more candidates. -/
  checked_le : others.checked ≤ counters.checked
  /-- Its largest pool is no larger. -/
  largest_le : others.largest ≤ counters.largest
  /-- It searches for no more conditions. -/
  separators_le : others.separators ≤ counters.separators

/-- Whether a second report has a related result and counts at most what a first one does. -/
structure Report.Covers {α β : Type} (related : Option α → Option β → Prop) (report : Report α)
    (other : Report β) : Prop where
  /-- The results are related. -/
  results : related report.result other.result
  /-- The second counters are at most the first. -/
  counters : report.counters.Covers other.counters

/-- Smaller counts have a sum when larger ones do, and a smaller one. -/
theorem addCount_follows {count amount less fewer : Nat} (counts : less ≤ count)
    (amounts : fewer ≤ amount) :
    Follows (fun sum other => other ≤ sum) (addCount count amount) (addCount less fewer) := by
  intro sum summed
  obtain ⟨rfl, fits⟩ := (addCount_eq_ok_iff _ _ _).mp summed
  have smaller : less + fewer ≤ count + amount := Nat.add_le_add counts amounts
  exact ⟨less + fewer, (addCount_eq_ok_iff _ _ _).mpr ⟨rfl, Nat.le_trans smaller fits⟩, smaller⟩

namespace Counters.Covers

variable {counters others part parts : Counters}

/-- Counters cover themselves. -/
theorem refl (counters : Counters) : counters.Covers counters :=
  ⟨Nat.le_refl _, Nat.le_refl _, Nat.le_refl _, Nat.le_refl _, Nat.le_refl _, Nat.le_refl _⟩

/-- A smaller round is counted when a larger one is. -/
theorem recordLevel (covers : counters.Covers others) {growth size survivors : Nat}
    {growth' size' survivors' : Nat} (growths : growth' ≤ growth) (sizes : size' ≤ size)
    (kept : survivors' ≤ survivors) :
    Follows Covers (counters.recordLevel growth size survivors)
      (others.recordLevel growth' size' survivors') := by
  refine (addCount_follows covers.levels_le (Nat.le_refl 1)).bind fun _ _ levels_le => ?_
  refine (addCount_follows covers.grown_le growths).bind fun _ _ grown_le => ?_
  refine (addCount_follows covers.kept_le kept).bind fun _ _ kept_le => .ok ?_
  exact { covers with levels_le, grown_le, kept_le
                      largest_le := max_le_max covers.largest_le sizes }

/-- Fewer checks are counted when more are. -/
theorem recordChecks (covers : counters.Covers others) {checks fewer : Nat}
    (amounts : fewer ≤ checks) :
    Follows Covers (counters.recordChecks checks) (others.recordChecks fewer) :=
  (addCount_follows covers.checked_le amounts).bind fun _ _ checked_le =>
    .ok { covers with checked_le }

/-- A search for a condition is counted when it is counted on top of more. -/
theorem recordSeparator (covers : counters.Covers others) :
    Follows Covers counters.recordSeparator others.recordSeparator :=
  (addCount_follows covers.separators_le (Nat.le_refl 1)).bind fun _ _ separators_le =>
    .ok { covers with separators_le }

/-- The counters of a smaller part are added when those of a larger one are. -/
theorem absorb (covers : counters.Covers others) (within : part.Covers parts) :
    Follows Covers (counters.absorb part) (others.absorb parts) := by
  refine (addCount_follows covers.levels_le within.levels_le).bind fun _ _ levels_le => ?_
  refine (addCount_follows covers.grown_le within.grown_le).bind fun _ _ grown_le => ?_
  refine (addCount_follows covers.kept_le within.kept_le).bind fun _ _ kept_le => ?_
  refine (addCount_follows covers.checked_le within.checked_le).bind fun _ _ checked_le => ?_
  refine (addCount_follows covers.separators_le within.separators_le).bind
    fun _ _ separators_le => .ok ?_
  exact { levels_le, grown_le, kept_le, checked_le, separators_le
          largest_le := max_le_max covers.largest_le within.largest_le }

end Counters.Covers

/-- One pool is checked alike, whatever has been counted before. -/
theorem firstCorrect_follows {examples : List Example} {pool : List Candidate}
    {counters others : Counters} (covers : counters.Covers others) :
    Follows (Report.Covers Eq) (firstCorrect examples pool counters)
      (firstCorrect examples pool others) := by
  induction pool generalizing counters others with
  | nil => exact .ok ⟨rfl, covers⟩
  | cons candidate pool ih =>
    refine (covers.recordChecks (Nat.le_refl 1)).bind fun counted counted' less => ?_
    refine .bind_same fun correct => ?_
    cases correct with
    | true => exact .ok ⟨rfl, less⟩
    | false => exact ih less

namespace SearchSpace.Thins

variable {space thin : SearchSpace} {examples : List Example} {poolLimit maxLevel rounds : Nat}
  {pool others : List Candidate} {counters counters' : Counters}

/-- A level from a thinned pool leads to the same pool. -/
theorem growLevel_follows (thins : space.Thins thin) (thinned : Thinned pool others)
    (typed : space.grammar.TypedPool pool) (bound : space.grammar.BoundBy examples)
    (fits : space.roundSize pool ≤ poolLimit) (covers : counters.Covers counters') :
    Follows (fun report other => report.result = some (space.advance examples pool) ∧
        report.Covers Eq other)
      (growLevel space examples poolLimit pool counters)
      (growLevel thin examples poolLimit others counters') := by
  have thinTyped : thin.grammar.TypedPool others := thins.typedPool thinned typed
  have thinBound : thin.grammar.BoundBy examples := fun case inside =>
    thins.names ▸ bound case inside
  have smaller := thins.roundSize_le thinned
  have growths := (thins.additions thinned).length_le
  rw [growLevel_eq typed bound, growLevel_eq thinTyped thinBound, if_pos fits,
    if_pos (Nat.le_trans smaller fits), thins.advance_eq thinned]
  exact (covers.recordLevel (by omega) smaller (Nat.le_refl _)).bind
    fun counted counted' less => .ok ⟨rfl, rfl, less⟩

/-- Levels from a thinned pool lead to a thinned pool. After the first level reduction has left
both searches one pool. -/
theorem growLevels_follows (thins : space.Thins thin) (thinned : Thinned pool others)
    (typed : space.grammar.TypedPool pool) (bound : space.grammar.BoundBy examples)
    (fit : space.RoundsFit examples poolLimit (fun _ => False) rounds pool)
    (covers : counters.Covers counters') :
    Follows (Report.Covers (Option.Rel Thinned))
      (growLevels space examples poolLimit rounds pool counters)
      (growLevels thin examples poolLimit rounds others counters') := by
  induction rounds generalizing pool others counters counters' with
  | zero => exact .ok ⟨.some thinned, covers⟩
  | succ rounds ih =>
    obtain ⟨fits, later⟩ := (roundsFit_succ_iff typed bound).mp fit
    have grows := thins.growLevel_follows thinned typed bound fits covers
    refine grows.bind fun report report' both => ?_
    obtain ⟨result, leveled⟩ := report
    obtain ⟨result', leveled'⟩ := report'
    obtain ⟨rfl, rfl, less⟩ := both
    exact ih (.refl _) (typedPool_advance typed) (later.resolve_left id) less

/-- A search over levels from a thinned pool finds the same. -/
theorem searchLevels_follows (thins : space.Thins thin) (thinned : Thinned pool others)
    (typed : space.grammar.TypedPool pool) (bound : space.grammar.BoundBy examples)
    (fit : space.RoundsFit examples poolLimit (Solved examples) rounds pool)
    (covers : counters.Covers counters') :
    Follows (Report.Covers Eq) (searchLevels space examples poolLimit rounds pool counters)
      (searchLevels thin examples poolLimit rounds others counters') := by
  induction rounds generalizing pool others counters counters' with
  | zero => exact .ok ⟨rfl, covers⟩
  | succ rounds ih =>
    obtain ⟨fits, later⟩ := (roundsFit_succ_iff typed bound).mp fit
    have advanced : space.grammar.TypedPool (space.advance examples pool) :=
      typedPool_advance typed
    have grows := thins.growLevel_follows thinned typed bound fits covers
    refine grows.bind fun report report' both => ?_
    obtain ⟨result, leveled⟩ := report
    obtain ⟨result', leveled'⟩ := report'
    obtain ⟨rfl, rfl, less⟩ := both
    refine (firstCorrect_follows less).returned.bind fun report report' both => ?_
    obtain ⟨found, counted⟩ := report
    obtain ⟨found', counted'⟩ := report'
    obtain ⟨⟨rfl, more⟩, checked, _⟩ := both
    cases found with
    | some candidate => exact .ok ⟨rfl, more⟩
    | none =>
      have unsolved : ¬Solved examples (space.advance examples pool) := by
        rintro ⟨candidate, inside, correct⟩
        have first : (space.advance examples pool).find? (·.solves examples) = none :=
          (congrArg Report.result ((firstCorrect_delivers advanced bound
            (Nat.le_refl _)).of_ok checked)).symm
        exact solved_iff.mp ⟨candidate, inside, correct⟩ first
      exact ih (.refl _) advanced (later.resolve_left unsolved) more

/-- A search with repetitions removed finds the same. -/
theorem enumerativeSearch_follows (thins : space.Thins thin)
    (bound : space.grammar.BoundBy examples)
    (fit : space.RoundsFit examples poolLimit (Solved examples) maxLevel
      space.grammar.terminals) :
    Follows (Report.Covers Eq) (enumerativeSearch space examples maxLevel poolLimit)
      (enumerativeSearch thin examples maxLevel poolLimit) :=
  thins.searchLevels_follows (Grammar.thinned_terminals thins.names thins.constants)
    (Grammar.typedPool_terminals _) bound fit (.refl _)

end SearchSpace.Thins

section

variable {config : SearchConfig} {grammar : Grammar} {examples : List Example}
  {scored thin : List Scored} {start counters counters' : Counters}

/-- With repetitions removed the scored candidates are thinned. -/
theorem score_follows (bound : grammar.BoundBy examples)
    (fit : (config.space grammar).RoundsFit examples config.poolLimit (fun _ => False)
      config.coverRounds grammar.terminals) :
    Follows (Report.Covers (Option.Rel Thinned)) (score config grammar examples .zero)
      (score config.distinct grammar.distinct examples .zero) := by
  have thins := config.thins_space grammar
  have thinned : Thinned grammar.terminals grammar.distinct.terminals :=
    Grammar.thinned_terminals thins.names thins.constants
  have typed : (config.space grammar).grammar.TypedPool grammar.terminals :=
    Grammar.typedPool_terminals grammar
  have spaceBound : (config.space grammar).grammar.BoundBy examples := bound
  have grows := thins.growLevels_follows thinned typed spaceBound fit (.refl .zero)
  refine grows.returned.bind fun report report' both => ?_
  obtain ⟨result, leveled⟩ := report
  obtain ⟨result', leveled'⟩ := report'
  obtain ⟨⟨results, less⟩, grown, _⟩ := both
  cases results with
  | none => exact .ok ⟨.none, less⟩
  | @some pool others pools =>
    have poolTyped : grammar.TypedPool pool :=
      SearchSpace.typedPool_of_growLevels typed spaceBound grown
    have othersTyped : grammar.distinct.TypedPool others := thins.typedPool pools poolTyped
    have programs := pools.filter fun candidate => candidate.ty = .int
    simp only [Grammar.ofType_eq poolTyped.declaresHeads,
      Grammar.ofType_eq othersTyped.declaresHeads, ok_bind]
    refine (less.recordChecks programs.length_le).bind fun counted counted' more => ?_
    exact Follows.bind (fun entries all => programs.mapM all)
      fun entries entries' same => .ok ⟨.some same, more⟩

/-- With repetitions removed two pieces are merged alike. -/
theorem unify_follows {first second : Piece} (bound : grammar.BoundBy examples)
    (fit : (config.separatorSpace grammar).RoundsFit (separatorExamples examples first.mask)
      config.poolLimit (SearchSpace.Solved (separatorExamples examples first.mask))
      config.maxLevel grammar.terminals)
    (covers : counters.Covers counters') :
    Follows (Report.Covers Eq) (unify config grammar examples first second counters)
      (unify config.distinct grammar.distinct examples first second counters') := by
  have labelled : (config.separatorSpace grammar).grammar.BoundBy
    (separatorExamples examples first.mask) := boundBy_separatorExamples bound first.mask
  have thins := config.thins_separatorSpace grammar
  refine (thins.enumerativeSearch_follows labelled fit).bind fun found found' both => ?_
  obtain ⟨result, part⟩ := found
  obtain ⟨result', part'⟩ := found'
  obtain ⟨rfl, smaller⟩ := both
  refine covers.recordSeparator.bind fun recorded recorded' less => ?_
  refine (less.absorb smaller).bind fun absorbed absorbed' more => ?_
  cases result with
  | none => exact .ok ⟨rfl, more⟩
  | some separator =>
    refine .bind_same fun mask => ?_
    refine .bind_same fun condition => ?_
    exact .ok ⟨rfl, more⟩

namespace Stage

variable {stage stage' : Stage}

/-- Whether a run over all candidates has reached the stage at which another run stands, which
has counted no more. -/
structure Ahead (config : SearchConfig) (grammar : Grammar) (examples : List Example)
    (scored : List Scored) (start : Counters) (stage : Stage) (counters : Counters)
    (stage' : Stage) (counters' : Counters) : Prop where
  /-- The stages are one. -/
  same : stage = stage'
  /-- The second run has counted no more. -/
  covers : counters.Covers counters'
  /-- The first run reaches the stage. -/
  reached : Reached config grammar examples scored start stage counters

/-- With repetitions removed a step leads to the same stage or ends the run alike. -/
theorem step_follows (bound : grammar.BoundBy examples)
    (fits : config.SeparatorsFit grammar examples scored start) (same : Thinned scored thin)
    (reached : Reached config grammar examples scored start stage counters)
    (covers : counters.Covers counters') :
    Follows (Transition.Matched
        (fun following later partner later' => following = partner ∧ later.Covers later')
        (Report.Covers Eq))
      (stage.step config grammar examples scored counters)
      (stage.step config.distinct grammar.distinct examples thin counters') := by
  cases stage with
  | searching collected uncovered =>
    rw [step, step, bestFor_congr same.same]
    by_cases done : uncovered.count = 0
    · rw [if_pos done, if_pos done]
      exact .ok (.next ⟨rfl, covers⟩)
    · rw [if_neg done, if_neg done]
      refine .bind_same fun best => ?_
      cases best with
      | none => exact .ok (.stop ⟨rfl, covers⟩)
      | some entry =>
        refine .bind_same fun program => ?_
        refine .bind_same fun solved => ?_
        exact .ok (.next ⟨rfl, covers⟩)
  | covered pieces =>
    cases pieces with
    | nil => exact .ok (.stop ⟨rfl, covers⟩)
    | cons piece rest => exact .ok (.next ⟨rfl, covers⟩)
  | unifying merged rest =>
    cases rest with
    | nil => exact .ok (.next ⟨rfl, covers⟩)
    | cons piece rest =>
      have fit := fits merged piece rest counters reached
      refine (unify_follows bound fit covers).bind fun report report' both => ?_
      obtain ⟨result, later⟩ := report
      obtain ⟨result', later'⟩ := report'
      obtain ⟨rfl, less⟩ := both
      cases result with
      | none => exact .ok (.stop ⟨rfl, less⟩)
      | some joined => exact .ok (.next ⟨rfl, less⟩)
  | done piece =>
    rw [step, step]
    by_cases full : piece.mask.isFull = true
    · rw [if_pos full, if_pos full]
      refine .bind_same fun verdict => ?_
      cases verdict with
      | true => exact .ok (.stop ⟨rfl, covers⟩)
      | false => rintro _ ⟨⟩
    · rw [if_neg full]
      rintro _ ⟨⟩

/-- A run that stands at a stage that another has reached stays with it, or ends alike. -/
theorem Ahead.follows (bound : grammar.BoundBy examples)
    (fits : config.SeparatorsFit grammar examples scored start) (same : Thinned scored thin)
    (ahead : Ahead config grammar examples scored start stage counters stage' counters') :
    Follows (Transition.Matched (Ahead config grammar examples scored start) (Report.Covers Eq))
      (stage.step config grammar examples scored counters)
      (stage'.step config.distinct grammar.distinct examples thin counters') := by
  obtain ⟨rfl, covers, reached⟩ := ahead
  intro transition here
  obtain ⟨partner, there, both⟩ := step_follows bound fits same reached covers transition here
  refine ⟨partner, there, ?_⟩
  cases both with
  | next stages => exact .next ⟨stages.1, stages.2, reached.step here⟩
  | stop reports => exact .stop reports

end Stage

/-- A unification search with repetitions removed returns the same and counts no more. -/
theorem unificationSearch_follows (bound : grammar.BoundBy examples)
    (coverFits : (config.space grammar).RoundsFit examples config.poolLimit (fun _ => False)
      config.coverRounds grammar.terminals)
    (separatorsFit : ∀ scored start,
      score config grammar examples .zero = .ok ⟨some scored, start⟩ →
      config.SeparatorsFit grammar examples scored start) :
    Follows (Report.Covers Eq) (unificationSearch config grammar examples)
      (unificationSearch config.distinct grammar.distinct examples) := by
  refine (score_follows bound coverFits).returned.bind fun report report' both => ?_
  obtain ⟨result, start⟩ := report
  obtain ⟨result', start'⟩ := report'
  obtain ⟨⟨results, less⟩, scoring, _⟩ := both
  cases results with
  | none => exact .ok ⟨rfl, less⟩
  | @some scored thin same =>
    have fits := separatorsFit scored start scoring
    have started : Stage.Ahead config grammar examples scored start (.initial examples) start
      (.initial examples) start' := ⟨rfl, less, .initial⟩
    exact Stage.run_follows (fun _ _ _ _ ahead => ahead.follows bound fits same) _ _ started

end

/-- Repeated literals and operators are harmless. Remove all but the first occurrence of each
literal of a problem, and of each operator of the settings. If no round of the first search
exceeds the limit, the enumerative search returns the same candidate as before or none as before.
If no round of the search for a cover, or of a search for a condition, exceeds the limit, so does
the unification search. Only if the bounds reach the largest machine word may the first search
overflow a counter instead. -/
theorem searches_ignore_repetitions (problem : Problem) (config : SearchConfig) :
    ((config.space problem.grammar).RoundsFit problem.examples config.poolLimit
        (SearchSpace.Solved problem.examples) config.maxLevel problem.grammar.terminals →
      Delivers (config.maxLevel * max config.poolLimit 1)
        (enumerativeSearch (config.space problem.grammar) problem.examples config.maxLevel
          config.poolLimit) fun report =>
        ∃ counters, enumerativeSearch (config.distinct.space problem.distinct.grammar)
          problem.distinct.examples config.distinct.maxLevel config.distinct.poolLimit =
            .ok ⟨report.result, counters⟩) ∧
    ((config.space problem.grammar).RoundsFit problem.examples config.poolLimit (fun _ => False)
        config.coverRounds problem.grammar.terminals →
      (∀ scored start,
        score config problem.grammar problem.examples .zero = .ok ⟨some scored, start⟩ →
        config.SeparatorsFit problem.grammar problem.examples scored start) →
      Delivers ((config.coverRounds + 1 + problem.examples.length * max config.maxLevel 1) *
          max config.poolLimit problem.grammar.terminals.length)
        (unificationSearch config problem.grammar problem.examples) fun report =>
        ∃ counters, unificationSearch config.distinct problem.distinct.grammar
          problem.distinct.examples = .ok ⟨report.result, counters⟩) := by
  constructor
  · intro fit
    have bound : (config.space problem.grammar).grammar.BoundBy problem.examples :=
      problem.boundBy
    obtain ⟨levelRoom, workRoom⟩ := SearchSpace.le_mul_max_one config.maxLevel config.poolLimit
    refine (SearchSpace.enumerativeSearch_delivers bound levelRoom workRoom).of_forall_ok
      fun report searched => ?_
    obtain ⟨⟨result, counters⟩, again, same, _⟩ :=
      (config.thins_space problem.grammar).enumerativeSearch_follows bound fit report searched
    exact ⟨counters, again.trans (by rw [same])⟩
  · intro coverFits separatorsFit
    have positive : 0 < max config.maxLevel 1 := Nat.le_max_right _ _
    refine (unificationSearch_delivers_of_le problem positive (Nat.le_max_left _ _)
      (Nat.le_max_left _ _) (Nat.le_max_right _ _) (Nat.le_succ _)).of_forall_ok
      fun report searched => ?_
    obtain ⟨⟨result, counters⟩, again, same, _⟩ :=
      unificationSearch_follows problem.boundBy coverFits separatorsFit report searched
    exact ⟨counters, again.trans (by rw [same])⟩

namespace Smaller

/-- The smaller of two numbers, with a literal listed twice. -/
def repeatedLiteral : Problem := { problem with
  grammar := ⟨["x", "y"], [0, 0]⟩
  terminals := by decide }

/-- One level of growth in which operators are tried twice. -/
def repeatedOps : SearchConfig :=
  { oneLevel with ops := [.lt, .plus, .lt], separatorOps := [.lt, .lt] }

/-- The smaller of two numbers is searched for alike with and without repetitions. -/
theorem searches_repeated :
    (repeatedOps.space repeatedLiteral.grammar).RoundsFit repeatedLiteral.examples
      repeatedOps.poolLimit (SearchSpace.Solved repeatedLiteral.examples) repeatedOps.maxLevel
      repeatedLiteral.grammar.terminals ∧
    Delivers (repeatedOps.maxLevel * max repeatedOps.poolLimit 1)
      (enumerativeSearch (repeatedOps.space repeatedLiteral.grammar) repeatedLiteral.examples
        repeatedOps.maxLevel repeatedOps.poolLimit) (fun report =>
      ∃ counters, enumerativeSearch (repeatedOps.distinct.space repeatedLiteral.distinct.grammar)
        repeatedLiteral.distinct.examples repeatedOps.distinct.maxLevel
        repeatedOps.distinct.poolLimit = .ok ⟨report.result, counters⟩) ∧
    (repeatedOps.space repeatedLiteral.grammar).RoundsFit repeatedLiteral.examples
      repeatedOps.poolLimit (fun _ => False) repeatedOps.coverRounds
      repeatedLiteral.grammar.terminals ∧
    (∀ scored start,
      score repeatedOps repeatedLiteral.grammar repeatedLiteral.examples .zero =
        .ok ⟨some scored, start⟩ →
      repeatedOps.SeparatorsFit repeatedLiteral.grammar repeatedLiteral.examples scored start) ∧
    Delivers ((repeatedOps.coverRounds + 1 +
          repeatedLiteral.examples.length * max repeatedOps.maxLevel 1) *
        max repeatedOps.poolLimit repeatedLiteral.grammar.terminals.length)
      (unificationSearch repeatedOps repeatedLiteral.grammar repeatedLiteral.examples)
      fun report =>
        ∃ counters, unificationSearch repeatedOps.distinct repeatedLiteral.distinct.grammar
          repeatedLiteral.distinct.examples = .ok ⟨report.result, counters⟩ := by
  have bound : (repeatedOps.space repeatedLiteral.grammar).grammar.BoundBy
    repeatedLiteral.examples := repeatedLiteral.boundBy
  have small : (repeatedOps.space repeatedLiteral.grammar).roundSize
    repeatedLiteral.grammar.terminals ≤ repeatedOps.poolLimit := by decide +kernel
  obtain ⟨enumerative, unification⟩ := searches_ignore_repetitions repeatedLiteral repeatedOps
  have separatorsFit : ∀ scored start,
      score repeatedOps repeatedLiteral.grammar repeatedLiteral.examples .zero =
        .ok ⟨some scored, start⟩ →
      repeatedOps.SeparatorsFit repeatedLiteral.grammar repeatedLiteral.examples scored start :=
    fun _ _ _ => separatorsFit_of_one rfl repeatedLiteral.boundBy (by decide +kernel)
  exact ⟨SearchSpace.roundsFit_one bound small,
    enumerative (SearchSpace.roundsFit_one bound small),
    SearchSpace.roundsFit_one bound small, separatorsFit,
    unification (SearchSpace.roundsFit_one bound small) separatorsFit⟩

end Smaller

end ProgramSynthesis
