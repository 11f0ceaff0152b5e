import ProgramSynthesis.Proofs.SinglePiece

/-!
# Larger bounds

A search asks its bounds only whether to give up: the level bound after the last level, the pool
limit before a round. As long as it does not give up it takes the same steps under larger bounds.
So an answer stays the same when the bounds are raised, and it takes the same counters.
-/

namespace ProgramSynthesis

/-- Whether a search returns a report without an answer. -/
def GivesUp {α : Type} (outcome : Except Fault (Report α)) : Prop :=
  ∃ counters, outcome = .ok ⟨none, counters⟩

/-- A search that returns an answer does not give up. -/
theorem not_givesUp_of_eq_some {α : Type} {outcome : Except Fault (Report α)} {answer : α}
    {counters : Counters} (answered : outcome = .ok ⟨some answer, counters⟩) :
    ¬GivesUp outcome := by
  rintro ⟨later, gaveUp⟩
  rw [answered] at gaveUp
  cases gaveUp

/-- The same settings under other bounds. -/
def SearchConfig.withBounds (config : SearchConfig) (maxLevel poolLimit : Nat) : SearchConfig :=
  { config with maxLevel, poolLimit }

section

variable {space : SearchSpace} {config : SearchConfig} {grammar : Grammar}
  {examples : List Example} {poolLimit larger maxLevel more rounds : Nat}
  {pool : List Candidate} {scored : List Scored} {counters later : Counters}

/-- A level that is grown under a limit is grown under a larger one. -/
theorem growLevel_eq_of_le (limits : poolLimit ≤ larger)
    (persists : ¬GivesUp (growLevel space examples poolLimit pool counters)) :
    growLevel space examples larger pool counters =
      growLevel space examples poolLimit pool counters := by
  unfold growLevel at persists ⊢
  apply bind_congr_of_ok
  intro growth counted
  rw [counted, ok_bind] at persists
  have fits : ¬poolLimit < min (pool.length + growth) maxCount := by
    intro exceeds
    rw [if_pos exceeds] at persists
    exact persists ⟨counters, rfl⟩
  have fitsLarger : ¬larger < min (pool.length + growth) maxCount := by omega
  rw [if_neg fits, if_neg fitsLarger]

/-- Levels that are all grown under a limit are grown under a larger one. -/
theorem growLevels_eq_of_le (limits : poolLimit ≤ larger)
    (persists : ¬GivesUp (growLevels space examples poolLimit rounds pool counters)) :
    growLevels space examples larger rounds pool counters =
      growLevels space examples poolLimit rounds pool counters := by
  induction rounds generalizing pool counters with
  | zero => rfl
  | succ rounds ih =>
    rw [growLevels] at persists
    have leveled : ¬GivesUp (growLevel space examples poolLimit pool counters) := by
      rintro ⟨after, gaveUp⟩
      rw [gaveUp] at persists
      exact persists ⟨after, rfl⟩
    rw [growLevels, growLevels, growLevel_eq_of_le limits leveled]
    apply bind_congr_of_ok
    rintro ⟨next, after⟩ grown
    rw [grown, ok_bind] at persists
    cases next with
    | none => rfl
    | some next => exact ih persists

/-- A search over levels that does not give up is the same under a larger limit and with more
levels. -/
theorem searchLevels_eq_of_le (limits : poolLimit ≤ larger) (levels : rounds ≤ more)
    (persists : ¬GivesUp (searchLevels space examples poolLimit rounds pool counters)) :
    searchLevels space examples larger more pool counters =
      searchLevels space examples poolLimit rounds pool counters := by
  induction rounds generalizing more pool counters with
  | zero =>
    exact absurd ⟨counters, rfl⟩ persists
  | succ rounds ih =>
    obtain ⟨more, rfl⟩ : ∃ fewer, more = fewer + 1 := ⟨more - 1, by omega⟩
    rw [searchLevels] at persists
    have leveled : ¬GivesUp (growLevel space examples poolLimit pool counters) := by
      rintro ⟨after, gaveUp⟩
      rw [gaveUp] at persists
      exact persists ⟨after, rfl⟩
    rw [searchLevels, searchLevels, growLevel_eq_of_le limits leveled]
    apply bind_congr_of_ok
    rintro ⟨next, after⟩ grown
    rw [grown, ok_bind] at persists
    cases next with
    | none => rfl
    | some next =>
      apply bind_congr_of_ok
      rintro ⟨found, counted⟩ checked
      simp only [checked, ok_bind] at persists
      cases found with
      | some found => rfl
      | none => exact ih (Nat.le_of_succ_le_succ levels) persists

/-- An enumerative search that does not give up is the same under larger bounds. -/
theorem enumerativeSearch_eq_of_le (limits : poolLimit ≤ larger) (levels : maxLevel ≤ more)
    (persists : ¬GivesUp (enumerativeSearch space examples maxLevel poolLimit)) :
    enumerativeSearch space examples more larger =
      enumerativeSearch space examples maxLevel poolLimit :=
  searchLevels_eq_of_le limits levels persists

/-- Pieces that are scored are scored alike under larger bounds. -/
theorem score_eq_of_le (limits : config.poolLimit ≤ larger)
    (scoring : score config grammar examples counters = .ok ⟨some scored, later⟩) :
    score (config.withBounds more larger) grammar examples counters =
      .ok ⟨some scored, later⟩ := by
  obtain ⟨⟨pool, leveled⟩, grown, scores⟩ := bind_eq_ok_iff.mp scoring
  cases pool with
  | none => cases scores
  | some pool =>
    have same := growLevels_eq_of_le limits (not_givesUp_of_eq_some grown)
    rw [score, ← scores]
    show growLevels (config.space grammar) examples larger config.coverRounds _ _ >>= _ = _
    rw [same, grown]
    rfl

/-- Pieces that are merged are merged alike under larger bounds. The search for their condition
has not given up, since the merge would then have none. -/
theorem unify_eq_of_le {first second joined : Piece} (levels : config.maxLevel ≤ more)
    (limits : config.poolLimit ≤ larger)
    (unified : unify config grammar examples first second counters = .ok ⟨some joined, later⟩) :
    unify (config.withBounds more larger) grammar examples first second counters =
      .ok ⟨some joined, later⟩ := by
  obtain ⟨found, searched, merged⟩ := bind_eq_ok_iff.mp unified
  have persists : ¬GivesUp (enumerativeSearch (config.separatorSpace grammar)
      (separatorExamples examples first.mask) config.maxLevel config.poolLimit) := by
    rintro ⟨spent, gaveUp⟩
    obtain rfl : found = ⟨none, spent⟩ := Except.ok.inj (searched.symm.trans gaveUp)
    obtain ⟨recorded, _, merged⟩ := bind_eq_ok_iff.mp merged
    obtain ⟨absorbed, _, merged⟩ := bind_eq_ok_iff.mp merged
    cases merged
  rw [unify, ← merged]
  show enumerativeSearch (config.separatorSpace grammar) _ more larger >>= _ = _
  rw [enumerativeSearch_eq_of_le limits levels persists, searched]
  rfl

namespace Stage

variable {stage : Stage} {transition : Transition} {program : Expr}

/-- A step that does not end the run without a program is the same under larger bounds. -/
theorem step_eq_of_le (levels : config.maxLevel ≤ more) (limits : config.poolLimit ≤ larger)
    (stepped : stage.step config grammar examples scored counters = .ok transition)
    (persists : ∀ after, transition ≠ .stop ⟨none, after⟩) :
    stage.step (config.withBounds more larger) grammar examples scored counters =
      .ok transition := by
  cases stage with
  | searching collected uncovered => exact stepped
  | covered pieces =>
    cases pieces with
    | nil => exact stepped
    | cons piece rest => exact stepped
  | unifying merged rest =>
    cases rest with
    | nil => exact stepped
    | cons piece rest =>
      obtain ⟨⟨joined, after⟩, unified, ended⟩ := bind_eq_ok_iff.mp stepped
      cases joined with
      | none =>
        cases ended
        exact absurd rfl (persists after)
      | some joined =>
        rw [step, unify_eq_of_le levels limits unified, ok_bind]
        exact ended
  | done piece => exact stepped

/-- A run that returns a program returns it under larger bounds. Its steps are those under larger
bounds too, and its measure goes down with each. -/
theorem run_eq_of_le (levels : config.maxLevel ≤ more) (limits : config.poolLimit ≤ larger)
    (exact : stage.Exact examples)
    (ran : stage.run config grammar examples scored counters exact =
      .ok ⟨some program, later⟩) :
    stage.run (config.withBounds more larger) grammar examples scored counters exact =
      .ok ⟨some program, later⟩ := by
  induction measured : stage.measure using Nat.strong_induction_on
    generalizing stage counters with
  | _ size ih =>
    cases stepped : stage.step config grammar examples scored counters with
    | error fault =>
      rw [run_eq_of_fault exact stepped] at ran
      cases ran
    | ok transition =>
      cases transition with
      | stop report =>
        rw [run_eq_of_stop exact stepped] at ran
        cases ran
        exact run_eq_of_stop exact (step_eq_of_le levels limits stepped nofun)
      | next following after =>
        have moved := moves_of_step stepped
        have same := step_eq_of_le levels limits stepped nofun
        rw [run_eq_of_next exact stepped] at ran
        rw [run_eq_of_next exact same]
        exact ih _ (measured ▸ measure_lt_of_moves exact moved) (exact_of_moves moved) ran rfl

end Stage

end

/-- Answers survive larger bounds. Raise the level bound and the pool limit of a search. If an
enumerative search returned a candidate, it returns that candidate with the same counters; if a
unification search returned a program, it returns that program with the same counters. -/
theorem answers_survive_larger_bounds (config : SearchConfig) (grammar : Grammar)
    (examples : List Example) (maxLevel poolLimit : Nat) (levels : config.maxLevel ≤ maxLevel)
    (limits : config.poolLimit ≤ poolLimit) :
    (∀ found counters,
      enumerativeSearch (config.space grammar) examples config.maxLevel config.poolLimit =
        .ok ⟨some found, counters⟩ →
      enumerativeSearch ((config.withBounds maxLevel poolLimit).space grammar) examples maxLevel
        poolLimit = .ok ⟨some found, counters⟩) ∧
    ∀ program counters,
      unificationSearch config grammar examples = .ok ⟨some program, counters⟩ →
      unificationSearch (config.withBounds maxLevel poolLimit) grammar examples =
        .ok ⟨some program, counters⟩ := by
  constructor
  · intro found counters searched
    have persists := not_givesUp_of_eq_some searched
    exact (enumerativeSearch_eq_of_le limits levels persists).trans searched
  · intro program counters searched
    obtain ⟨⟨result, start⟩, scoring, ran⟩ := bind_eq_ok_iff.mp searched
    cases result with
    | none => cases ran
    | some scored =>
      rw [unificationSearch, score_eq_of_le limits scoring, ok_bind]
      exact Stage.run_eq_of_le levels limits _ ran

namespace SearchSpace

/-- The variable plus two, as it is grown. -/
def twoMore : Candidate :=
  .node .plus [.leaf (.var "x"), .node .plus [.leaf (.number 1), .leaf (.number 1)]]

/-- The counters of two levels towards the variable plus two. -/
def twoLevels : Counters := ⟨2, 37, 23, 17, 36, 0⟩

/-- The variable plus two is found at the second of three levels. -/
theorem enumerativeSearch_plusTwo :
    enumerativeSearch (sumConfig.space sumSpace.grammar) plusTwo sumConfig.maxLevel
      sumConfig.poolLimit = .ok ⟨some twoMore, twoLevels⟩ := by
  have bound : sumSpace.grammar.BoundBy plusTwo := by decide
  have typed := Grammar.typedPool_terminals sumSpace.grammar
  have advanced : sumSpace.grammar.TypedPool
    (sumSpace.advance plusTwo sumSpace.grammar.terminals) := typedPool_advance typed
  change enumerativeSearch sumSpace plusTwo 3 100 = _
  rw [enumerativeSearch, searchLevels_succ_eq typed bound]
  simp only [searchLevels_succ_eq advanced bound]
  decide +kernel

end SearchSpace

/-- The variable plus two and the smaller of two numbers are found alike within larger bounds. -/
theorem plusTwo_and_smaller_survive :
    enumerativeSearch ((SearchSpace.sumConfig.withBounds 5 200).space SearchSpace.sumSpace.grammar)
      SearchSpace.plusTwo 5 200 = .ok ⟨some SearchSpace.twoMore, SearchSpace.twoLevels⟩ ∧
    unificationSearch (Smaller.config.withBounds 5 4000000) Smaller.grammar Smaller.examples =
      .ok ⟨some Smaller.program, Smaller.finish⟩ := by
  constructor
  · exact (answers_survive_larger_bounds SearchSpace.sumConfig SearchSpace.sumSpace.grammar
      SearchSpace.plusTwo 5 200 (by decide) (by decide)).1 _ _
        SearchSpace.enumerativeSearch_plusTwo
  · exact (answers_survive_larger_bounds Smaller.config Smaller.grammar Smaller.examples 5 4000000
      (by decide) (by decide)).2 _ _ Smaller.unificationSearch_eq

end ProgramSynthesis
