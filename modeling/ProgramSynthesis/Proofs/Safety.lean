import ProgramSynthesis.Proofs.Stages
import ProgramSynthesis.Proofs.Validation

/-!
# Synthesis without faults

A validated problem binds what its programs read, so typing leaves counters as the only thing
that could fault. A run of the unification search uses one allowance for its cover and one for
every merge, and it merges fewer times than there are examples, because every pick solves an
uncovered example. As long as all of that fits a machine word, no stage of a run faults.
-/

namespace ProgramSynthesis

/-- Every counter stays within a limit. -/
def Counters.Below (counters : Counters) (limit : Nat) : Prop :=
  counters.AtMost limit limit limit

/-- What a run may use: `base` for the cover and `each` for every merge, which stays within the
budget for fewer merges than there are examples. -/
structure Allowance (config : SearchConfig) (examples : List Example) (base each budget : Nat) :
    Prop where
  /-- A merge may use something. -/
  positive : 0 < each
  /-- A merge may use the levels of one search. -/
  levels_le : config.maxLevel ≤ each
  /-- A merge may use the work of one search. -/
  work_le : config.maxLevel * config.poolLimit ≤ each
  /-- All merges together stay within the budget. -/
  total_le : ∀ merges < examples.length, base + merges * each ≤ budget

/-- How much of its allowance a run has used when it stands at a stage. The pieces picked so
far and the examples still uncovered are together no more than the examples. -/
def Stage.Spent (examples : List Example) (base each : Nat) (counters : Counters) : Stage → Prop
  | searching collected uncovered =>
    collected.length + uncovered.count ≤ examples.length ∧ counters.Below base
  | covered pieces => pieces.length ≤ examples.length ∧ counters.Below base
  | unifying _ rest => ∃ merges, merges + 1 + rest.length ≤ examples.length ∧
    counters.Below (base + merges * each)
  | done _ => True

variable {config : SearchConfig} {grammar : Grammar} {examples : List Example}
  {scored : List Scored} {start counters later : Counters} {stage following : Stage}
  {base each budget : Nat}

/-- The examples of a branch condition bind the names that the examples bind. -/
theorem boundBy_separatorExamples (bound : grammar.BoundBy examples) (mask : Mask) :
    grammar.BoundBy (separatorExamples examples mask) := by
  intro case inside
  obtain ⟨bit, original, within, rfl⟩ := exists_of_mem_separatorExamples inside
  exact bound original within

/-- Merging two pieces over the same examples uses at most the allowance of a merge. -/
theorem unify_delivers {first second : Piece} {spent : Nat}
    (bound : grammar.BoundBy examples) (same : first.mask.length = second.mask.length)
    (used : counters.Below spent) (positive : 0 < each) (levels : config.maxLevel ≤ each)
    (work : config.maxLevel * config.poolLimit ≤ each) (room : spent + each ≤ budget) :
    Delivers budget (unify config grammar examples first second counters) fun report =>
      report.counters.Below (spent + each) := by
  have labelled : (config.separatorSpace grammar).grammar.BoundBy
    (separatorExamples examples first.mask) := boundBy_separatorExamples bound first.mask
  obtain ⟨levelsUsed, grownUsed, keptUsed, checkedUsed, separatorsUsed⟩ := used
  refine (SearchSpace.enumerativeSearch_delivers labelled (by omega) (by omega)).bind
    fun found searched => ?_
  obtain ⟨explored, _, part⟩ := searched
  obtain ⟨levelsPart, grownPart, keptPart, checkedPart, separatorsPart⟩ := part
  refine (Counters.recordSeparator_delivers (by omega)).bind fun recorded counted => ?_
  rw [counted]
  refine (Counters.absorb_delivers (by simp only; omega) (by simp only; omega)
    (by simp only; omega) (by simp only; omega) (by simp only; omega)).bind fun absorbed sum => ?_
  have spent : absorbed.Below (spent + each) := by
    rw [sum]
    constructor <;> simp only <;> omega
  cases result : found.result with
  | none => exact .ok spent
  | some candidate =>
    have typed : grammar.WellTyped candidate := SearchSpace.wellTyped_of_explore
      (Grammar.typedPool_terminals grammar) (explored.symm.trans result)
    obtain ⟨separator, compiled, _⟩ := typed.compile
    have union := (Mask.union_eq_ok_iff first.mask second.mask _).mpr ⟨same, rfl⟩
    simp only [union, compiled, ok_bind]
    exact .ok spent

namespace Stage

/-- While pieces are picked there is a step: to the next pick, or to the end of the picks. -/
theorem exists_step_searching {collected : List Piece} {uncovered : Mask}
    (typed : ∀ entry ∈ scored, grammar.WellTyped entry.candidate)
    (masked : ∀ entry ∈ scored, entry.candidate.mask examples = .ok entry.mask)
    (exact : (searching collected uncovered).Exact examples) :
    ∃ transition, (searching collected uncovered).step config grammar examples scored counters =
      .ok transition := by
  obtain ⟨solved, unioned, rfl⟩ := exact
  obtain ⟨whole, each⟩ := Mask.length_of_unionAll unioned
  have counted : ∀ entry ∈ scored, entry.mask.length = examples.length :=
    fun entry inside => Candidate.length_of_mask (masked entry inside)
  rw [step]
  by_cases done : solved.complement.count = 0
  · exact ⟨_, if_pos done⟩
  · have same : ∀ entry ∈ scored, entry.mask.length = solved.complement.length := by
      intro entry inside
      rw [counted entry inside, Mask.length_complement, whole]
    obtain ⟨best, searched⟩ := exists_bestFor same
    rw [if_neg done, searched, ok_bind]
    cases best with
    | none => exact ⟨_, rfl⟩
    | some entry =>
      have inside := mem_of_bestFor searched
      obtain ⟨program, compiled, _⟩ := (typed entry inside).compile
      have lengths : ∀ mask ∈ (collected ++ [Piece.mk program entry.mask]).map Piece.mask,
          mask.length = examples.length := by
        simp only [List.map_append, List.mem_append, List.map_singleton, List.mem_singleton]
        rintro mask (old | rfl)
        · exact each mask old
        · exact counted entry inside
      obtain ⟨joined, union⟩ := Mask.exists_unionAll lengths
      simp only [compiled, union, ok_bind]
      exact ⟨_, rfl⟩

/-- A stage that a run reaches within its allowance has a step, unless the budget is too large
for a counter. -/
theorem step_delivers (allowed : Allowance config examples base each budget)
    (bound : grammar.BoundBy examples)
    (typed : ∀ entry ∈ scored, grammar.WellTyped entry.candidate)
    (masked : ∀ entry ∈ scored, entry.candidate.mask examples = .ok entry.mask)
    (sound : stage.Sound config grammar examples scored start)
    (spent : stage.Spent examples base each counters) :
    Delivers budget (stage.step config grammar examples scored counters) fun _ => True := by
  cases stage with
  | searching collected uncovered =>
    obtain ⟨transition, stepped⟩ : ∃ transition,
        (searching collected uncovered).step config grammar examples scored counters =
          .ok transition := exists_step_searching typed masked sound.1
    rw [stepped]
    exact .ok trivial
  | covered pieces =>
    cases pieces with
    | nil => exact .ok trivial
    | cons piece rest => exact .ok trivial
  | unifying merged rest =>
    cases rest with
    | nil => exact .ok trivial
    | cons piece rest =>
      obtain ⟨folded, before, _, held⟩ := sound
      obtain ⟨merges, few, used⟩ := spent
      rw [List.length_cons] at few
      have total : base + merges * each + each ≤ budget := by
        rw [Nat.add_assoc, ← Nat.add_one_mul]
        exact allowed.total_le (merges + 1) (by omega)
      rw [step]
      refine (unify_delivers bound held.same_length used allowed.positive allowed.levels_le
        allowed.work_le total).bind fun report _ => ?_
      obtain ⟨result, after⟩ := report
      cases result with
      | none => exact .ok trivial
      | some joined => exact .ok trivial
  | done piece =>
    obtain ⟨full, exact⟩ := sound
    have correct := Expr.isCorrect_of_mask_full (full ▸ exact)
    rw [step, full, Mask.isFull_full, if_pos rfl, correct, ok_bind]
    exact .ok trivial

/-- A move stays within the allowance. -/
theorem spent_of_moves (allowed : Allowance config examples base each budget)
    (bound : grammar.BoundBy examples)
    (sound : stage.Sound config grammar examples scored start)
    (spent : stage.Spent examples base each counters)
    (moved : Moves config grammar examples scored stage counters following later) :
    following.Spent examples base each later := by
  cases moved with
  | cover solved =>
    obtain ⟨few, used⟩ := spent
    exact ⟨by omega, used⟩
  | pick best compiled joined =>
    obtain ⟨few, used⟩ := spent
    have fewer := count_lt_of_pick sound.1 best joined
    refine ⟨?_, used⟩
    rw [List.length_append, List.length_singleton]
    omega
  | @start piece rest _ =>
    obtain ⟨few, used⟩ := spent
    rw [List.length_cons] at few
    refine ⟨0, by omega, ?_⟩
    rw [Nat.zero_mul]
    exact used
  | @merge merged piece joined rest _ _ unified =>
    obtain ⟨folded, before, _, held⟩ := sound
    obtain ⟨merges, few, used⟩ := spent
    rw [List.length_cons] at few
    refine ⟨merges + 1, by omega, ?_⟩
    rw [Nat.add_one_mul, ← Nat.add_assoc]
    exact (unify_delivers bound held.same_length used allowed.positive allowed.levels_le
      allowed.work_le (Nat.le_refl _)).of_ok unified
  | finish => trivial

/-- From every stage that a run reaches within its allowance the run ends with a report, unless
the budget is too large for a counter. -/
theorem run_delivers (allowed : Allowance config examples base each budget)
    (bound : grammar.BoundBy examples)
    (typed : ∀ entry ∈ scored, grammar.WellTyped entry.candidate)
    (masked : ∀ entry ∈ scored, entry.candidate.mask examples = .ok entry.mask)
    (reached : Reached config grammar examples scored start stage counters)
    (spent : stage.Spent examples base each counters) (exact : stage.Exact examples) :
    Delivers budget (stage.run config grammar examples scored counters exact) fun _ => True := by
  induction measured : stage.measure using Nat.strong_induction_on
    generalizing stage counters with
  | _ size ih =>
    have sound := sound_of_reached masked reached
    rcases step_delivers allowed bound typed masked sound spent with
      ⟨transition, stepped, _⟩ | ⟨large, overflows⟩
    · cases transition with
      | stop report =>
        rw [run_eq_of_stop exact stepped]
        exact .ok trivial
      | next following later =>
        have moved := moves_of_step stepped
        rw [run_eq_of_next exact stepped]
        exact ih _ (measured ▸ measure_lt_of_moves exact moved) (reached.step stepped)
          (spent_of_moves allowed bound sound spent moved) (exact_of_moves moved) rfl
    · exact .inr ⟨large, run_eq_of_fault exact overflows⟩

end Stage

/-- A validated problem binds the declared names in every example. -/
theorem Problem.boundBy (problem : Problem) : problem.grammar.BoundBy problem.examples := by
  intro case inside name declared
  rw [Env.binds_iff_mem_names]
  exact (problem.binds case inside name).mpr declared

/-- There is always a terminal to grow from. -/
theorem Grammar.length_terminals_pos (grammar : Grammar) : 0 < grammar.terminals.length := by
  simp [terminals]

section

variable {room levels : Nat}

/-- The allowance of a search: one pool for every cover round and for the scores, and one pool
for every level of every merge. -/
theorem allowance_of_fits (positive : 0 < levels) (levelRoom : config.maxLevel ≤ levels)
    (roomy : 0 < room) (poolRoom : config.poolLimit ≤ room)
    (fits : (config.coverRounds + 1 + examples.length * levels) * room ≤ budget + 1) :
    Allowance config examples ((config.coverRounds + 1) * room) (levels * room) budget := by
  have used : 0 < levels * room := Nat.mul_pos positive roomy
  have levelsRoom : levels ≤ levels * room := Nat.le_mul_of_pos_right _ roomy
  refine ⟨used, Nat.le_trans levelRoom levelsRoom, Nat.mul_le_mul levelRoom poolRoom, ?_⟩
  intro merges few
  have more : (merges + 1) * (levels * room) ≤ examples.length * (levels * room) :=
    Nat.mul_le_mul_right _ few
  rw [Nat.add_mul, Nat.mul_assoc] at fits
  rw [Nat.add_one_mul] at more
  omega

/-- The unification search of a validated problem returns a report, unless some positive bound on
its levels is too large for a counter. -/
theorem unificationSearch_delivers_of_le (problem : Problem) (positive : 0 < levels)
    (levelRoom : config.maxLevel ≤ levels) (poolRoom : config.poolLimit ≤ room)
    (terminalRoom : problem.grammar.terminals.length ≤ room)
    (fits : (config.coverRounds + 1 + problem.examples.length * levels) * room ≤ budget + 1) :
    Delivers budget (unificationSearch config problem.grammar problem.examples)
      fun _ => True := by
  have roomy : 0 < room := Nat.lt_of_lt_of_le problem.grammar.length_terminals_pos terminalRoom
  have allowed := allowance_of_fits positive levelRoom roomy poolRoom fits
  have rounds : config.coverRounds + 1 ≤ (config.coverRounds + 1) * room :=
    Nat.le_mul_of_pos_right _ roomy
  have small := allowed.total_le 0 (List.length_pos_iff.mpr problem.examples_ne_nil)
  rw [Nat.zero_mul, Nat.add_zero] at small
  rcases score_delivers problem.boundBy poolRoom terminalRoom (by omega) small with
    ⟨⟨result, start⟩, scoring, used, typed⟩ | ⟨large, overflows⟩
  · rw [unificationSearch, scoring, ok_bind]
    cases result with
    | none => exact .ok trivial
    | some scored =>
      have spent : (Stage.initial problem.examples).Spent problem.examples
          ((config.coverRounds + 1) * room) (levels * room) start := by
        refine ⟨?_, used.mono (by omega) (Nat.le_refl _) (Nat.zero_le _)⟩
        rw [List.length_nil, Mask.count_full, Nat.zero_add]
      exact Stage.run_delivers allowed problem.boundBy (typed scored rfl)
        (fun _ inside => mask_of_score scoring inside) .initial spent
        (Stage.exact_initial problem.examples)
  · rw [unificationSearch, overflows]
    exact .inr ⟨large, rfl⟩

/-- The unification search of a validated problem returns a report, unless its bounds are too
large for a counter. -/
theorem unificationSearch_delivers (problem : Problem) (levels : 0 < config.maxLevel)
    (poolRoom : config.poolLimit ≤ room)
    (terminalRoom : problem.grammar.terminals.length ≤ room)
    (fits : (config.coverRounds + 1 + problem.examples.length * config.maxLevel) * room ≤
      budget + 1) :
    Delivers budget (unificationSearch config problem.grammar problem.examples) fun _ => True :=
  unificationSearch_delivers_of_le problem levels (Nat.le_refl _) poolRoom terminalRoom fits

/-- The unification search of a validated problem returns a report when its bounds fit a machine
word. -/
theorem exists_unificationSearch (problem : Problem) (levels : 0 < config.maxLevel)
    (poolRoom : config.poolLimit ≤ room)
    (terminalRoom : problem.grammar.terminals.length ≤ room)
    (fits : (config.coverRounds + 1 + problem.examples.length * config.maxLevel) * room <
      2 ^ 64) :
    ∃ report, unificationSearch config problem.grammar problem.examples = .ok report := by
  have word : maxCount + 1 = 2 ^ 64 := by decide
  have delivered : Delivers (maxCount - 1)
      (unificationSearch config problem.grammar problem.examples) fun _ => True :=
    unificationSearch_delivers problem levels poolRoom terminalRoom (by omega)
  obtain ⟨report, searched, _⟩ := delivered.exists_of_lt (by omega)
  exact ⟨report, searched⟩

/-- The enumerative search of a validated problem returns a report, and what it finds
compiles. -/
theorem exists_solve_enumerative (problem : Problem) (levels : 0 < config.maxLevel)
    (poolRoom : config.poolLimit ≤ room)
    (terminalRoom : problem.grammar.terminals.length ≤ room)
    (fits : (config.coverRounds + 1 + problem.examples.length * config.maxLevel) * room <
      2 ^ 64) :
    ∃ report, problem.solve config .enumerative = .ok report := by
  have roomy : 0 < room := Nat.lt_of_lt_of_le problem.grammar.length_terminals_pos terminalRoom
  have enough : config.maxLevel ≤ config.maxLevel * room := Nat.le_mul_of_pos_right _ roomy
  have work : config.maxLevel * config.poolLimit ≤ config.maxLevel * room :=
    Nat.mul_le_mul_left _ poolRoom
  have cover : 0 < (config.coverRounds + 1) * room := Nat.mul_pos (Nat.succ_pos _) roomy
  have merges : config.maxLevel * room ≤ problem.examples.length * (config.maxLevel * room) :=
    Nat.le_mul_of_pos_left _ (List.length_pos_iff.mpr problem.examples_ne_nil)
  have word : maxCount + 1 = 2 ^ 64 := by decide
  rw [Nat.add_mul, Nat.mul_assoc] at fits
  have bound : (config.space problem.grammar).grammar.BoundBy problem.examples := problem.boundBy
  obtain ⟨⟨result, counters⟩, searched, explored, _⟩ := (SearchSpace.enumerativeSearch_delivers
    bound enough work).exists_of_lt (by omega)
  rw [Problem.solve, searched, ok_bind]
  cases result with
  | none => exact ⟨_, rfl⟩
  | some found =>
    have typed : problem.grammar.WellTyped found := SearchSpace.wellTyped_of_explore
      (Grammar.typedPool_terminals problem.grammar) explored.symm
    obtain ⟨program, compiled, _⟩ := typed.compile
    simp only [compiled, ok_bind]
    exact ⟨_, rfl⟩

end

/-- Synthesis never faults. Whatever it is given, with bounds that fit a machine word, it returns
a validation error or the report of a search: no evaluation, compilation, application, mask
operation or addition to a counter finds a broken invariant, and neither does the final check of a
unified program. -/
theorem synthesize_never_faults (strategy : Strategy) (config : SearchConfig)
    (names : List String) (constants : List Int64) (examples : List Example)
    (fits : (config.coverRounds + 1 + examples.length * config.maxLevel) *
      max config.poolLimit (Grammar.mk names constants).terminals.length < 2 ^ 64) :
    ∃ answer, synthesize strategy config names constants examples = .ok answer := by
  unfold synthesize
  split
  · exact ⟨_, rfl⟩
  · rename_i levels
    cases valid : Problem.validate names constants examples with
    | error error => exact ⟨_, rfl⟩
    | ok problem =>
      obtain ⟨grammar, given⟩ := Problem.parts_of_validate valid
      rw [← grammar, ← given] at fits
      have positive : 0 < config.maxLevel := Nat.pos_of_ne_zero levels
      have solved : ∃ report, problem.solve config strategy = .ok report := by
        cases strategy with
        | enumerative =>
          exact exists_solve_enumerative problem positive (Nat.le_max_left _ _)
            (Nat.le_max_right _ _) fits
        | unification =>
          exact exists_unificationSearch problem positive (Nat.le_max_left _ _)
            (Nat.le_max_right _ _) fits
      obtain ⟨report, returned⟩ := solved
      simp only [returned, ok_bind]
      exact ⟨_, rfl⟩

/-- The smaller of two numbers is synthesized without a fault under the standard settings. -/
theorem synthesize_smaller :
    (SearchConfig.standard.coverRounds + 1 +
      Smaller.examples.length * SearchConfig.standard.maxLevel) *
      max SearchConfig.standard.poolLimit (Grammar.mk ["x", "y"] []).terminals.length < 2 ^ 64 ∧
    ∃ answer, synthesize .unification SearchConfig.standard ["x", "y"] [] Smaller.examples =
      .ok answer := by
  have fits : (SearchConfig.standard.coverRounds + 1 +
      Smaller.examples.length * SearchConfig.standard.maxLevel) *
      max SearchConfig.standard.poolLimit (Grammar.mk ["x", "y"] []).terminals.length < 2 ^ 64 := by
    decide
  exact ⟨fits, synthesize_never_faults .unification SearchConfig.standard ["x", "y"] []
    Smaller.examples fits⟩

end ProgramSynthesis
