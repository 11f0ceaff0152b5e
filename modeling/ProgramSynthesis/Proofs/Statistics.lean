import ProgramSynthesis.Proofs.Accounts
import ProgramSynthesis.Proofs.Iterations
import ProgramSynthesis.Proofs.LargerBounds
import ProgramSynthesis.Synthesis

/-!
# The statistics of a synthesis

A unification scores its candidates and then searches for one condition after the other, each for
the examples that the pieces merged so far solve, up to the first condition that is not found.
Which searches these are depends on the masks of the picked pieces alone, so they are listed here
apart from the run that counts them; the counters of the run are those of the scoring and of every
listed search, the one that fails included.
-/

namespace ProgramSynthesis

/-- The searches for conditions under which pieces with these masks are merged, in order: one for
the examples marked so far as long as a piece waits, up to the first that finds nothing. -/
def conditionSearches (config : SearchConfig) (grammar : Grammar) (examples : List Example) :
    Mask → List Mask → Except Fault (List (Report Candidate))
  | _, [] => .ok []
  | marked, next :: rest => do
    let search ← enumerativeSearch (config.separatorSpace grammar)
      (separatorExamples examples marked) config.maxLevel config.poolLimit
    match search.result with
    | none => return [search]
    | some _ =>
      return search :: (← conditionSearches config grammar examples (← marked.union next) rest)

/-- The searches for conditions that a unification starts after its scoring. -/
inductive Searches (config : SearchConfig) (grammar : Grammar) (examples : List Example) :
    Report (List Scored) → List (Report Candidate) → Prop where
  /-- There are none if the pieces could not be scored within the pool limit. -/
  | unscored (counters : Counters) : Searches config grammar examples ⟨none, counters⟩ []
  /-- There are none if the picked pieces leave an example uncovered. -/
  | uncovered {scored : List Scored} {counters : Counters} {pieces : List Piece}
    {uncovered : Mask}
    (final : Stage.FinalPicks config grammar examples scored counters pieces uncovered)
    (remaining : uncovered.count ≠ 0) : Searches config grammar examples ⟨some scored, counters⟩ []
  /-- Pieces that cover the examples are merged in order. -/
  | covered {scored : List Scored} {counters : Counters} {first : Piece} {rest : List Piece}
    {uncovered : Mask} {searches : List (Report Candidate)}
    (final : Stage.FinalPicks config grammar examples scored counters (first :: rest) uncovered)
    (covers : uncovered.count = 0)
    (searched : conditionSearches config grammar examples first.mask (rest.map Piece.mask) =
      .ok searches) : Searches config grammar examples ⟨some scored, counters⟩ searches

namespace Counters

/-- The counters after some searches for conditions: every search is counted, its counters are
added, and the largest pool is kept. -/
def afterSearches (counters : Counters) (searches : List (Report Candidate)) : Counters where
  levels := counters.levels + (searches.map fun search => search.counters.levels).sum
  grown := counters.grown + (searches.map fun search => search.counters.grown).sum
  kept := counters.kept + (searches.map fun search => search.counters.kept).sum
  checked := counters.checked + (searches.map fun search => search.counters.checked).sum
  largest := (searches.map fun search => search.counters.largest).foldl max counters.largest
  separators := counters.separators + searches.length

/-- Searches are counted one after the other. -/
theorem afterSearches_cons (counters : Counters) (search : Report Candidate)
    (searches : List (Report Candidate)) :
    counters.afterSearches (search :: searches) =
      (counters.afterSearches [search]).afterSearches searches := by
  simp only [afterSearches, List.map_cons, List.map_nil, List.sum_cons, List.sum_nil,
    List.foldl_cons, List.foldl_nil, List.length_cons, List.length_nil, Nat.add_zero,
    Nat.zero_add, Nat.add_assoc, Nat.add_comm 1]

/-- One search is counted, and its counters are added. -/
theorem afterSearches_singleton (counters : Counters) (search : Report Candidate) :
    counters.afterSearches [search] = {
      levels := counters.levels + search.counters.levels
      grown := counters.grown + search.counters.grown
      kept := counters.kept + search.counters.kept
      checked := counters.checked + search.counters.checked
      largest := max counters.largest search.counters.largest
      separators := counters.separators + 1 } := rfl

end Counters

section

variable {config : SearchConfig} {grammar : Grammar} {examples : List Example}
  {scored : List Scored} {start counters later : Counters}

/-- What holds of the counters of every search for a condition. -/
structure SearchConfig.WithinBounds (config : SearchConfig) (search : Report Candidate) :
    Prop where
  /-- The levels are within their bound. -/
  levels_le : search.counters.levels ≤ config.maxLevel
  /-- The largest pool is within the limit. -/
  largest_le : search.counters.largest ≤ config.poolLimit

/-- Every search for a condition adds at most the levels of one search, and keeps the largest pool
within the limit. -/
theorem Counters.afterSearches_le {searches : List (Report Candidate)}
    (each : ∀ search ∈ searches, config.WithinBounds search)
    (within : counters.largest ≤ config.poolLimit) :
    (counters.afterSearches searches).levels ≤
        counters.levels + searches.length * config.maxLevel ∧
      (counters.afterSearches searches).largest ≤ config.poolLimit := by
  induction searches generalizing counters with
  | nil => exact ⟨Nat.le_add_right _ _, within⟩
  | cons search searches ih =>
    obtain ⟨⟨few, small⟩, rest⟩ := List.forall_mem_cons.mp each
    rw [afterSearches_cons, List.length_cons, Nat.add_one_mul]
    have first : (counters.afterSearches [search]).levels =
        counters.levels + search.counters.levels := by
      rw [afterSearches_singleton]
    have kept : (counters.afterSearches [search]).largest ≤ config.poolLimit :=
      Nat.max_le.mpr ⟨within, small⟩
    obtain ⟨levels, largest⟩ := ih rest kept
    exact ⟨by omega, largest⟩

/-- A merge counts the search that it starts, whether that finds a condition or not. -/
theorem counters_of_unify {first second : Piece} {result : Option Piece}
    (bound : grammar.BoundBy examples) (small : config.poolLimit < maxCount)
    (unified : unify config grammar examples first second counters = .ok ⟨result, later⟩) :
    ∃ search, enumerativeSearch (config.separatorSpace grammar)
        (separatorExamples examples first.mask) config.maxLevel config.poolLimit = .ok search ∧
      config.WithinBounds search ∧ later = counters.afterSearches [search] ∧
      ((search.result = none ∧ result = none) ∨
        ∃ separator merged, search.result = some separator ∧ result = some merged ∧
          first.mask.union second.mask = .ok merged.mask) := by
  obtain ⟨search, recorded, searched, counted, summed, outcome⟩ := exists_search_of_unify unified
  have labelled : (config.separatorSpace grammar).grammar.BoundBy
    (separatorExamples examples first.mask) := boundBy_separatorExamples bound first.mask
  have accounts := SearchSpace.accounts_of_enumerativeSearch labelled small searched
  refine ⟨search, searched, ⟨accounts.levels_le, accounts.balanced.largest_le⟩, ?_, ?_⟩
  · rw [Counters.eq_of_absorb summed, Counters.eq_of_recordSeparator counted]
    rw [Counters.afterSearches_singleton, accounts.separators_eq, Nat.add_zero]
  · obtain nothing | ⟨separator, _, both, found, _, joined, rfl⟩ := outcome
    · exact .inl nothing
    · exact .inr ⟨separator, _, found, rfl, joined⟩

namespace Stage

/-- A run that merges pieces counts the searches for their conditions. Each search is for the
union of the masks so far, which the merged piece carries. -/
theorem counters_of_run_unifying {merged : Piece} {rest : List Piece} {report : Report Expr}
    (bound : grammar.BoundBy examples) (small : config.poolLimit < maxCount)
    (ran : (unifying merged rest).run config grammar examples scored counters trivial =
      .ok report) :
    ∃ searches,
      conditionSearches config grammar examples merged.mask (rest.map Piece.mask) = .ok searches ∧
      searches.length ≤ rest.length ∧ (∀ search ∈ searches, config.WithinBounds search) ∧
      report.counters = counters.afterSearches searches := by
  induction rest generalizing merged counters with
  | nil =>
    refine ⟨[], rfl, Nat.le_refl _, List.forall_mem_nil _, ?_⟩
    rw [run_unifying_nil] at ran
    split at ran
    · obtain ⟨verdict, _, ran⟩ := bind_eq_ok_iff.mp ran
      cases verdict with
      | true =>
        cases ran
        rfl
      | false => cases ran
    · cases ran
  | cons piece rest ih =>
    rw [run_unifying_cons] at ran
    obtain ⟨⟨result, later⟩, unified, ran⟩ := bind_eq_ok_iff.mp ran
    obtain ⟨search, searched, accounts, rfl, outcome⟩ := counters_of_unify bound small unified
    obtain ⟨failed, rfl⟩ | ⟨separator, joined, found, rfl, both⟩ := outcome
    · cases ran
      refine ⟨[search], ?_, Nat.succ_le_succ (Nat.zero_le _),
        List.forall_mem_singleton.mpr accounts, rfl⟩
      rw [List.map_cons, conditionSearches, searched, ok_bind, failed]
      rfl
    · obtain ⟨searches, listed, few, each, counted⟩ := ih ran
      refine ⟨search :: searches, ?_, Nat.succ_le_succ few,
        List.forall_mem_cons.mpr ⟨accounts, each⟩, ?_⟩
      · simp only [List.map_cons, conditionSearches, searched, ok_bind, found, both, listed]
        rfl
      · rw [counted, ← Counters.afterSearches_cons]

end Stage

/-- The scoring of the pieces counts the levels of their pool. -/
theorem counters_of_score {scoring : Report (List Scored)} (bound : grammar.BoundBy examples)
    (small : config.poolLimit < maxCount)
    (returned : score config grammar examples .zero = .ok scoring) :
    scoring.counters.levels ≤ config.coverRounds ∧
    scoring.counters.largest ≤ config.poolLimit ∧ scoring.counters.separators = 0 := by
  obtain ⟨⟨pool, leveled⟩, grown, returned⟩ := bind_eq_ok_iff.mp returned
  obtain ⟨balanced, separators, levels, _⟩ := SearchSpace.countsLevels_of_growLevels
    (Grammar.typedPool_terminals grammar) bound small Counters.balanced_zero grown
  have none : leveled.separators = 0 := separators
  have few : leveled.levels ≤ config.coverRounds := Nat.zero_add config.coverRounds ▸ levels
  cases pool with
  | none =>
    cases returned
    exact ⟨few, balanced.largest_le, none⟩
  | some pool =>
    obtain ⟨programs, _, returned⟩ := bind_eq_ok_iff.mp returned
    obtain ⟨_, counted, returned⟩ := bind_eq_ok_iff.mp returned
    obtain ⟨scored, _, returned⟩ := bind_eq_ok_iff.mp returned
    rw [Counters.recordChecks_eq] at counted
    split at counted
    · cases counted
      cases returned
      exact ⟨few, balanced.largest_le, none⟩
    · cases counted

/-- A unification counts its scoring and every search for a condition that it starts, fewer than
there are examples. -/
theorem exists_searches_of_unificationSearch {report : Report Expr}
    (bound : grammar.BoundBy examples) (nonempty : examples ≠ [])
    (small : config.poolLimit < maxCount)
    (searched : unificationSearch config grammar examples = .ok report) :
    ∃ scoring searches, score config grammar examples .zero = .ok scoring ∧
      Searches config grammar examples scoring searches ∧
      searches.length ≤ examples.length - 1 ∧
      (∀ search ∈ searches, config.WithinBounds search) ∧
      report.counters = scoring.counters.afterSearches searches := by
  obtain ⟨⟨result, start⟩, scoring, ran⟩ := bind_eq_ok_iff.mp searched
  cases result with
  | none =>
    cases ran
    exact ⟨_, [], scoring, .unscored start, Nat.zero_le _, List.forall_mem_nil _, rfl⟩
  | some scored =>
    have masked : ∀ entry ∈ scored, entry.candidate.mask examples = .ok entry.mask :=
      fun entry inside => mask_of_score scoring inside
    have begun : Stage.Reached config grammar examples scored start (.initial examples) start :=
      .initial
    obtain ⟨pieces, uncovered, final, _⟩ := Stage.exists_finalPicks
      (fun entry inside => (wellTyped_of_score bound scoring inside).1) masked begun
    by_cases covers : uncovered.count = 0
    · obtain ⟨first, rest, rfl, _, same⟩ := final.run_of_covered nonempty masked covers
      have picked : (first :: rest).length ≤ examples.length :=
        Stage.length_le_of_reached final.reached
      obtain ⟨searches, listed, few, each, counted⟩ :=
        Stage.counters_of_run_unifying bound small (same.symm.trans ran)
      exact ⟨_, searches, scoring, .covered final covers listed,
        few.trans (Nat.le_sub_one_of_lt picked), each, counted⟩
    · have gives := (final.run_of_uncovered covers).symm.trans ran
      cases gives
      exact ⟨_, [], scoring, .uncovered final covers, Nat.zero_le _, List.forall_mem_nil _, rfl⟩

/-- The statistics tell the truth. Under a pool limit below the largest word, whatever a synthesis
returns, with a program or without one, its counters are exact. An enumerative search has grown as
many levels as it counts, within its bound, its largest pool is within the limit, and its levels
have added and kept no more than that each. It has checked everything that it kept, unless it
found a program; then it has checked everything but what stands after the first correct candidate
of the last pool. A unification starts fewer searches for conditions than there are examples, each
within the level bound and the pool limit, and its counters are the sums of those of the scoring
and of all these searches, the one that fails included. -/
theorem statistics_are_exact (problem : Problem) (config : SearchConfig)
    (small : config.poolLimit < maxCount) :
    (∀ report, problem.solve config .enumerative = .ok report →
      report.counters.levels ≤ config.maxLevel ∧
      report.counters.largest ≤ config.poolLimit ∧
      report.counters.grown ≤ report.counters.levels * report.counters.largest ∧
      report.counters.kept ≤ report.counters.levels * report.counters.largest ∧
      report.counters.separators = 0 ∧
      ∃ top, growLevels (config.space problem.grammar) problem.examples config.poolLimit
          report.counters.levels problem.grammar.terminals .zero =
            .ok ⟨some top, { report.counters with checked := 0 }⟩ ∧
        (report.result = none → report.counters.checked = report.counters.kept) ∧
        ∀ program, report.result = some program → ∃ before found after,
          top = before ++ found :: after ∧ found.compile = .ok program ∧
          (∀ earlier ∈ before, earlier.isCorrect problem.examples = .ok false) ∧
          found.isCorrect problem.examples = .ok true ∧
          report.counters.checked + after.length = report.counters.kept) ∧
    ∀ report, problem.solve config .unification = .ok report →
      report.counters.separators ≤ problem.examples.length - 1 ∧
      report.counters.levels ≤
        config.coverRounds + report.counters.separators * config.maxLevel ∧
      report.counters.largest ≤ config.poolLimit ∧
      ∃ scoring searches, score config problem.grammar problem.examples .zero = .ok scoring ∧
        Searches config problem.grammar problem.examples scoring searches ∧
        report.counters.separators = searches.length ∧
        report.counters = scoring.counters.afterSearches searches := by
  constructor
  · intro report solved
    obtain ⟨search, searched, solved⟩ := bind_eq_ok_iff.mp solved
    obtain ⟨levels, ⟨largest, growth, kept⟩, separators, top, grown, ends⟩ :=
      SearchSpace.accounts_of_enumerativeSearch problem.boundBy small searched
    cases ends with
    | all nothing even =>
      rw [nothing] at solved
      cases solved
      exact ⟨levels, largest, growth, kept, separators, top, grown, fun _ => even, nofun⟩
    | @found before after candidate answer place wrong correct left =>
      rw [answer] at solved
      obtain ⟨program, compiled, solved⟩ := bind_eq_ok_iff.mp solved
      cases solved
      refine ⟨levels, largest, growth, kept, separators, top, grown, nofun, ?_⟩
      rintro _ ⟨⟩
      exact ⟨before, candidate, after, place, compiled, wrong, correct, left⟩
  · intro report solved
    obtain ⟨scoring, searches, scored, started, few, each, counted⟩ :=
      exists_searches_of_unificationSearch problem.boundBy problem.examples_ne_nil small solved
    obtain ⟨rounds, within, unseparated⟩ := counters_of_score problem.boundBy small scored
    obtain ⟨levels, largest⟩ := Counters.afterSearches_le each within
    have separators : report.counters.separators = searches.length := by
      rw [counted, Counters.afterSearches, unseparated, Nat.zero_add]
    refine ⟨separators ▸ few, ?_, counted ▸ largest, scoring, searches, scored, started,
      separators, counted⟩
    rw [separators, counted]
    exact levels.trans (Nat.add_le_add_right rounds _)

end

/-- The variable plus two is asked for. -/
def plusTwoProblem : Problem where
  grammar := SearchSpace.sumSpace.grammar
  examples := SearchSpace.plusTwo
  examples_ne_nil := by decide
  terminals := by decide
  nodup := by decide
  binds := (firstMismatch?_eq_none_iff _ SearchSpace.plusTwo).mp (by decide)

/-- The search for the variable plus two has kept six candidates that it has not checked, and the
unification for the smaller of two numbers counts its scoring and one search. -/
theorem statistics_are_exact_on_sums :
    (∃ top before found after,
      growLevels SearchSpace.sumSpace SearchSpace.plusTwo 100 2
          SearchSpace.sumSpace.grammar.terminals .zero =
        .ok ⟨some top, { SearchSpace.twoLevels with checked := 0 }⟩ ∧
      top = before ++ found :: after ∧
      found.compile = .ok (.binary .plus (.var "x") (.binary .plus (.number 1) (.number 1))) ∧
      17 + after.length = 23) ∧
    ∃ scoring searches,
      score Smaller.config Smaller.grammar Smaller.examples .zero = .ok scoring ∧
      Searches Smaller.config Smaller.grammar Smaller.examples scoring searches ∧
      1 = searches.length ∧ Smaller.finish = scoring.counters.afterSearches searches := by
  constructor
  · have solved : plusTwoProblem.solve SearchSpace.sumConfig .enumerative =
        .ok ⟨some (.binary .plus (.var "x") (.binary .plus (.number 1) (.number 1))),
          SearchSpace.twoLevels⟩ :=
      bind_eq_ok_iff.mpr ⟨_, SearchSpace.enumerativeSearch_plusTwo, rfl⟩
    obtain ⟨_, _, _, _, _, top, grown, _, answered⟩ :=
      (statistics_are_exact plusTwoProblem SearchSpace.sumConfig (by decide)).1 _ solved
    obtain ⟨before, found, after, place, compiled, _, _, left⟩ := answered _ rfl
    exact ⟨top, before, found, after, grown, place, compiled, left⟩
  · obtain ⟨_, _, _, scoring, searches, scored, started, separators, counted⟩ :=
      (statistics_are_exact Smaller.problem Smaller.config (by decide)).2 _
        Smaller.unificationSearch_eq
    exact ⟨scoring, searches, scored, started, separators, counted⟩

end ProgramSynthesis
