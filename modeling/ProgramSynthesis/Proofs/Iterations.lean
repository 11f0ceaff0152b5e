import ProgramSynthesis.Proofs.PicksInOrder
import ProgramSynthesis.Proofs.Success

/-!
# How long a run takes

A run is followed one iteration at a time, and stopped when it has used up a number of them. The
measure of the first stage is twice the number of examples and three, and every iteration that
does not end the run lowers it, so that many iterations are enough. While it picks, a run does one
of three things: it stops picking as everything is covered, picks a piece that leaves fewer
examples uncovered by exactly as many as the piece solves, or gives up as no candidate solves what
is left.
-/

namespace ProgramSynthesis

section

variable {config : SearchConfig} {grammar : Grammar} {examples : List Example}
  {scored : List Scored} {start counters : Counters} {collected : List Piece} {uncovered : Mask}
  {stage : Stage} {limit : Nat}

namespace Stage

/-- A run that is stopped after a number of iterations: nothing if it has not ended by then. -/
def runWithin (config : SearchConfig) (grammar : Grammar) (examples : List Example)
    (scored : List Scored) : Nat → Counters → Stage → Option (Except Fault (Report Expr))
  | 0, _, _ => none
  | limit + 1, counters, stage =>
    match stage.step config grammar examples scored counters with
    | .error fault => some (.error fault)
    | .ok (.stop report) => some (.ok report)
    | .ok (.next following later) =>
      following.runWithin config grammar examples scored limit later

/-- Every stage takes at least one iteration. -/
theorem measure_pos (stage : Stage) : 0 < stage.measure := by
  cases stage with
  | searching collected uncovered => simp [measure]
  | covered pieces => simp [measure]
  | unifying merged rest => simp [measure]
  | done piece => simp [measure]

/-- With as many iterations as the stage measures a run ends, as it does without a limit. -/
theorem runWithin_eq_some (exact : stage.Exact examples) (enough : stage.measure ≤ limit) :
    runWithin config grammar examples scored limit counters stage =
      some (stage.run config grammar examples scored counters exact) := by
  induction limit generalizing stage counters with
  | zero =>
    have positive := stage.measure_pos
    omega
  | succ limit ih =>
    rw [runWithin]
    cases stepped : stage.step config grammar examples scored counters with
    | error fault => rw [run_eq_of_fault exact stepped]
    | ok transition =>
      cases transition with
      | stop report => rw [run_eq_of_stop exact stepped]
      | next following later =>
        have moved := moves_of_step stepped
        have less : following.measure < stage.measure := measure_lt_of_moves exact moved
        have rest : following.measure ≤ limit := by omega
        rw [run_eq_of_next exact stepped]
        exact ih (exact_of_moves moved) rest

/-- Before the first pick a run takes at most two iterations for every example and three more. -/
theorem measure_initial (examples : List Example) :
    (initial examples).measure = 2 * examples.length + 3 := by
  rw [initial, measure, Mask.count_full, List.length_nil, Nat.add_zero]

/-- No more pieces are picked than there are examples. -/
theorem length_le_of_reached
    (reached : Reached config grammar examples scored start (searching collected uncovered)
      counters) : collected.length ≤ examples.length := by
  obtain ⟨_, picks, covered, run, rfl, _⟩ := reached_searching_iff.mp reached
  calc
    (picks.map Pick.piece).length = picks.length := List.length_map Pick.piece
    _ ≤ covered.count := run.length_le_count
    _ ≤ covered.length := List.count_le_length
    _ = examples.length := run.length_eq

/-- A run gives up while it picks exactly when no scored candidate solves some example. -/
theorem gives_up_iff (typed : ∀ entry ∈ scored, grammar.WellTyped entry.candidate)
    (masked : ∀ entry ∈ scored, entry.candidate.mask examples = .ok entry.mask) :
    (∃ collected uncovered counters,
      Reached config grammar examples scored start (searching collected uncovered) counters ∧
      (searching collected uncovered).step config grammar examples scored counters =
        .ok (.stop ⟨none, counters⟩)) ↔
    ∃ case ∈ examples, ∀ entry ∈ scored, ¬entry.candidate.Solves case := by
  constructor
  · rintro ⟨collected, uncovered, counters, reached, stepped⟩
    rcases step_searching_cases typed masked reached with
      ⟨_, covers⟩ | ⟨_, _, _, picks, _⟩ | ⟨remaining, nothing, _⟩
    · cases covers.symm.trans stepped
    · cases picks.symm.trans stepped
    · have same : counters = start := (reached_searching_iff.mp reached).1
      have final : FinalPicks config grammar examples scored start collected uncovered :=
        ⟨same ▸ reached, .inr nothing⟩
      by_contra solved
      push Not at solved
      exact remaining ((final.covers_iff_solves masked).mpr solved)
  · rintro ⟨case, inside, unsolved⟩
    have begun : Reached config grammar examples scored start (initial examples) start := .initial
    obtain ⟨pieces, left, final, _⟩ := exists_finalPicks typed masked begun
    have remaining : left.count ≠ 0 := by
      intro covers
      obtain ⟨entry, chosen, solves⟩ := (final.covers_iff_solves masked).mp covers case inside
      exact unsolved entry chosen solves
    exact ⟨pieces, left, start, final.reached, final.step_of_uncovered remaining⟩

/-- A run that returns a program has searched for one condition fewer than it has picked pieces. -/
theorem FinalPicks.separators_add_one (bound : grammar.BoundBy examples) (nonempty : examples ≠ [])
    (scoring : score config grammar examples .zero = .ok ⟨some scored, start⟩)
    (final : FinalPicks config grammar examples scored start collected uncovered)
    {program : Expr} {later : Counters}
    (ran : (initial examples).run config grammar examples scored start (exact_initial examples) =
      .ok ⟨some program, later⟩) : later.separators + 1 = collected.length := by
  have masked : ∀ entry ∈ scored, entry.candidate.mask examples = .ok entry.mask :=
    fun entry inside => mask_of_score scoring inside
  obtain ⟨_, _, first, others, rfl, counted, _⟩ := final.nested bound nonempty masked ran
  obtain ⟨_, _, _, _, unseparated⟩ := exists_climb_of_score bound scoring
  rw [counted, unseparated, Nat.zero_add, List.length_cons]

end Stage

/-- A run ends. The loop over scored candidates is left after at most two iterations for each
example and three more, with what the search returns; only if the bounds reach the largest machine
word may that be the overflow of a counter. At most as many pieces are picked as there are
examples. While pieces are picked, either everything is covered, or a piece is picked and leaves
fewer examples uncovered by exactly as many as it solves of them, at least one, or the run gives
up; it gives up exactly when no scored candidate solves some example. A run that returns a program
has searched for one condition fewer than it has picked pieces, so for fewer than there are
examples. -/
theorem unification_loop_ends (problem : Problem) (config : SearchConfig) (scored : List Scored)
    (start : Counters)
    (scoring : score config problem.grammar problem.examples .zero = .ok ⟨some scored, start⟩) :
    Stage.runWithin config problem.grammar problem.examples scored
        (2 * problem.examples.length + 3) start (.initial problem.examples) =
      some (unificationSearch config problem.grammar problem.examples) ∧
    (∀ collected uncovered counters,
      Stage.Reached config problem.grammar problem.examples scored start
        (.searching collected uncovered) counters →
      collected.length ≤ problem.examples.length ∧
      ((uncovered.count = 0 ∧
          (Stage.searching collected uncovered).step config problem.grammar problem.examples scored
            counters = .ok (.next (.covered collected) counters)) ∨
        (∃ piece gain left,
          (Stage.searching collected uncovered).step config problem.grammar problem.examples scored
            counters = .ok (.next (.searching (collected ++ [piece]) left) counters) ∧
          piece.mask.countWithin uncovered = .ok gain ∧ 1 ≤ gain ∧
          left.count + gain = uncovered.count) ∨
        (uncovered.count ≠ 0 ∧
          (Stage.searching collected uncovered).step config problem.grammar problem.examples scored
            counters = .ok (.stop ⟨none, counters⟩)))) ∧
    ((∃ collected uncovered counters,
        Stage.Reached config problem.grammar problem.examples scored start
          (.searching collected uncovered) counters ∧
        (Stage.searching collected uncovered).step config problem.grammar problem.examples scored
          counters = .ok (.stop ⟨none, counters⟩)) ↔
      ∃ case ∈ problem.examples, ∀ entry ∈ scored, ¬entry.candidate.Solves case) ∧
    Delivers ((config.coverRounds + 1 + problem.examples.length * max config.maxLevel 1) *
        max config.poolLimit problem.grammar.terminals.length)
      (unificationSearch config problem.grammar problem.examples) fun report =>
        ∀ program, report.result = some program → ∃ pieces uncovered,
          Stage.FinalPicks config problem.grammar problem.examples scored start pieces uncovered ∧
          report.counters.separators + 1 = pieces.length ∧
          report.counters.separators ≤ problem.examples.length - 1 := by
  have bound := problem.boundBy
  have masked : ∀ entry ∈ scored, entry.candidate.mask problem.examples = .ok entry.mask :=
    fun entry inside => mask_of_score scoring inside
  have typed : ∀ entry ∈ scored, problem.grammar.WellTyped entry.candidate :=
    fun entry inside => (wellTyped_of_score bound scoring inside).1
  have search : unificationSearch config problem.grammar problem.examples =
      (Stage.initial problem.examples).run config problem.grammar problem.examples scored start
        (Stage.exact_initial problem.examples) := by
    rw [unificationSearch, scoring, ok_bind]
  refine ⟨?_, fun collected uncovered counters reached => ⟨Stage.length_le_of_reached reached, ?_⟩,
    Stage.gives_up_iff typed masked, ?_⟩
  · rw [search]
    exact Stage.runWithin_eq_some _ (Nat.le_of_eq (Stage.measure_initial problem.examples))
  · rcases Stage.step_searching_cases typed masked reached with covers | picks | gives
    · exact .inl covers
    · exact .inr (.inl picks)
    · exact .inr (.inr ⟨gives.1, gives.2.2⟩)
  · have positive : 0 < max config.maxLevel 1 := Nat.le_max_right _ _
    have delivered := unificationSearch_delivers_of_le problem positive (Nat.le_max_left _ _)
      (Nat.le_max_left _ _) (Nat.le_max_right _ _) (Nat.le_succ _)
    refine delivered.of_forall_ok fun report searched program returned => ?_
    obtain ⟨answer, later⟩ := report
    obtain rfl : answer = some program := returned
    obtain ⟨pieces, uncovered, final, _⟩ := Stage.exists_finalPicks typed masked .initial
    have counted : later.separators + 1 = pieces.length :=
      final.separators_add_one bound problem.examples_ne_nil scoring (search.symm.trans searched)
    have few : pieces.length ≤ problem.examples.length := Stage.length_le_of_reached final.reached
    have fewer : later.separators ≤ problem.examples.length - 1 := by omega
    exact ⟨pieces, uncovered, final, counted, fewer⟩

end

namespace Smaller

/-- The smaller of two numbers is found within seven iterations, with two picks at most and one
condition. -/
theorem loop_ends_within_seven :
    score config problem.grammar problem.examples .zero = .ok ⟨some scored, start⟩ ∧
    Stage.runWithin config problem.grammar problem.examples scored 7 start
        (.initial problem.examples) =
      some (unificationSearch config problem.grammar problem.examples) ∧
    (∀ collected uncovered counters,
      Stage.Reached config problem.grammar problem.examples scored start
        (.searching collected uncovered) counters →
      collected.length ≤ 2 ∧
      ((uncovered.count = 0 ∧
          (Stage.searching collected uncovered).step config problem.grammar problem.examples scored
            counters = .ok (.next (.covered collected) counters)) ∨
        (∃ piece gain left,
          (Stage.searching collected uncovered).step config problem.grammar problem.examples scored
            counters = .ok (.next (.searching (collected ++ [piece]) left) counters) ∧
          piece.mask.countWithin uncovered = .ok gain ∧ 1 ≤ gain ∧
          left.count + gain = uncovered.count) ∨
        (uncovered.count ≠ 0 ∧
          (Stage.searching collected uncovered).step config problem.grammar problem.examples scored
            counters = .ok (.stop ⟨none, counters⟩)))) ∧
    ((∃ collected uncovered counters,
        Stage.Reached config problem.grammar problem.examples scored start
          (.searching collected uncovered) counters ∧
        (Stage.searching collected uncovered).step config problem.grammar problem.examples scored
          counters = .ok (.stop ⟨none, counters⟩)) ↔
      ∃ case ∈ problem.examples, ∀ entry ∈ scored, ¬entry.candidate.Solves case) ∧
    Delivers ((config.coverRounds + 1 + 2 * max config.maxLevel 1) *
        max config.poolLimit problem.grammar.terminals.length)
      (unificationSearch config problem.grammar problem.examples) fun report =>
        ∀ program, report.result = some program → ∃ pieces uncovered,
          Stage.FinalPicks config problem.grammar problem.examples scored start pieces uncovered ∧
          report.counters.separators + 1 = pieces.length ∧ report.counters.separators ≤ 2 - 1 := by
  have scoring : score config problem.grammar problem.examples .zero =
      .ok ⟨some scored, start⟩ := by decide +kernel
  exact ⟨scoring, unification_loop_ends problem config scored start scoring⟩

end Smaller

end ProgramSynthesis
