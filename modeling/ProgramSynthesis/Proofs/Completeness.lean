import ProgramSynthesis.Proofs.Enumeration
import ProgramSynthesis.Proofs.Marks

/-!
# Completeness and minimality of enumerative search

Plain growth brings up lower candidates before higher ones, so the first correct one of a plain
pool is of least height. The search stops at the first level that holds a correct candidate, and
reduction has not changed which candidate that is. Together these say when a search finds a
program, how high the program is and how many levels were grown.
-/

namespace ProgramSynthesis

namespace SearchSpace

variable {space : SearchSpace} {examples : List Example} {poolLimit : Nat}
  {pool plain : List Candidate}

/-- The first member that passes a test is of least height among all admissible candidates that
pass it. A lower one would have come up before it. -/
theorem height_le_of_find? {test : Candidate → Bool} {level : Nat} {found other : Candidate}
    (first : (space.expand^[level] space.grammar.terminals).find? test = some found)
    (admitted : space.Admissible other) (passes : test other = true) :
    found.height ≤ other.height := by
  by_contra higher
  have below : other.height < found.height := Nat.lt_of_not_le higher
  have inside := List.mem_of_find?_eq_some first
  have reached : found.height ≤ level := (mem_iterate_expand_iff.mp inside).2
  have low : other.height ≤ level := by omega
  have member : other ∈ space.expand^[level] space.grammar.terminals :=
    mem_iterate_expand_iff.mpr ⟨admitted, low⟩
  have before := idxOf_lt_idxOf_of_height_lt member inside below
  have after := idxOf_le_idxOf_of_find? first passes
  omega

/-- How a search over levels ends: at the first level whose plain pool holds a correct
candidate, with the first such candidate, or after all levels without one. -/
theorem explore_cases (bound : space.grammar.BoundBy examples) (nonempty : examples ≠ [])
    {rounds : Nat} (same : SameFirsts (·.behaviour examples) pool plain)
    (typed : space.grammar.TypedPool pool) (plainTyped : space.grammar.TypedPool plain)
    (fit : space.RoundsFit examples poolLimit (Solved examples) rounds pool) :
    (∃ level < rounds, ∃ found,
      (space.expand^[level + 1] plain).find? (·.solves examples) = some found ∧
      (∀ earlier < level,
        (space.expand^[earlier + 1] plain).find? (·.solves examples) = none) ∧
      space.explore examples poolLimit rounds pool = (some found, level + 1)) ∨
    ((∀ level < rounds, (space.expand^[level + 1] plain).find? (·.solves examples) = none) ∧
      space.explore examples poolLimit rounds pool = (none, rounds)) := by
  induction rounds generalizing pool plain with
  | zero => exact .inr ⟨fun level none => absurd none (Nat.not_lt_zero level), rfl⟩
  | succ rounds ih =>
    obtain ⟨fits, later⟩ := (roundsFit_succ_iff typed bound).mp fit
    have alike := sameFirsts_advance_expand same typed plainTyped bound nonempty
    have found := alike.find?_eq (·.solves examples) solves_congr
    rw [explore, if_pos fits]
    cases first : (space.advance examples pool).find? (·.solves examples) with
    | some candidate =>
      rw [first] at found
      exact .inl ⟨0, Nat.succ_pos _, candidate, found.symm,
        fun earlier none => absurd none (Nat.not_lt_zero earlier), rfl⟩
    | none =>
      rw [first] at found
      have unsolved : ¬Solved examples (space.advance examples pool) :=
        fun solved => solved_iff.mp solved first
      rcases ih alike (typedPool_advance typed) (typedPool_expand plainTyped)
        (later.resolve_left unsolved) with ⟨level, inside, candidate, reached, before, ended⟩ |
          ⟨nowhere, ended⟩
      · refine .inl ⟨level + 1, by omega, candidate, reached, ?_, by simp [ended]⟩
        intro earlier none
        cases earlier with
        | zero => exact found.symm
        | succ earlier => exact before earlier (by omega)
      · refine .inr ⟨fun level inside => ?_, by simp [ended]⟩
        cases level with
        | zero => exact found.symm
        | succ level => exact nowhere level (by omega)

/-- A correct candidate that growth reaches is found at its level. -/
theorem find?_ne_none {level : Nat} {candidate : Candidate} (admitted : space.Admissible candidate)
    (low : candidate.height ≤ level) (correct : candidate.isCorrect examples = .ok true) :
    (space.expand^[level] space.grammar.terminals).find? (·.solves examples) ≠ none := by
  have member := mem_iterate_expand_iff.mpr ⟨admitted, low⟩
  exact solved_iff.mp ⟨candidate, member, correct⟩

/-- What is found on a level is admissible, no higher than the level, and correct. -/
theorem of_find?_eq_some {level : Nat} {found : Candidate}
    (first : (space.expand^[level] space.grammar.terminals).find? (·.solves examples) =
      some found) :
    space.Admissible found ∧ found.height ≤ level ∧ found.isCorrect examples = .ok true := by
  have passes := List.find?_some (p := fun candidate : Candidate => candidate.solves examples) first
  obtain ⟨admitted, low⟩ := mem_iterate_expand_iff.mp (List.mem_of_find?_eq_some first)
  exact ⟨admitted, low, of_decide_eq_true passes⟩

/-- Levels that all fit find a candidate exactly when some admissible one no higher is correct. -/
theorem explore_isSome_iff (bound : space.grammar.BoundBy examples) (nonempty : examples ≠ [])
    {rounds : Nat} (positive : 0 < rounds)
    (fit : space.RoundsFit examples poolLimit (Solved examples) rounds space.grammar.terminals) :
    (space.explore examples poolLimit rounds space.grammar.terminals).1.isSome = true ↔
      ∃ candidate, space.Admissible candidate ∧ candidate.height ≤ rounds ∧
        candidate.isCorrect examples = .ok true := by
  have typed := Grammar.typedPool_terminals space.grammar
  rcases explore_cases bound nonempty rfl typed typed fit with
    ⟨level, inside, found, first, _, ended⟩ | ⟨nowhere, ended⟩
  · obtain ⟨admitted, low, correct⟩ := of_find?_eq_some first
    rw [ended]
    exact ⟨fun _ => ⟨found, admitted, by omega, correct⟩, fun _ => rfl⟩
  · rw [ended]
    refine ⟨nofun, ?_⟩
    rintro ⟨candidate, admitted, low, correct⟩
    have reached : candidate.height ≤ rounds - 1 + 1 := by omega
    exact absurd (nowhere (rounds - 1) (by omega)) (find?_ne_none admitted reached correct)

/-- Enumerative search is complete and minimal. On at least one example, all of which bind the
declared names, a search none of whose rounds exceeds the limit finds a program exactly when some
admissible program within its levels solves every example. What it finds is admissible, solves
every example, and is of least height among all admissible programs that do; it has then grown as
many levels as that height, and one at least, since a lower program would have been found on an
earlier level. A search that finds nothing has grown all levels. Only if the levels times the
limit reach the largest machine word may a counter overflow instead. -/
theorem enumerativeSearch_complete_and_minimal (space : SearchSpace) (examples : List Example)
    (maxLevel poolLimit : Nat) (positive : 0 < maxLevel) (nonempty : examples ≠ [])
    (bound : space.grammar.BoundBy examples)
    (fit : space.RoundsFit examples poolLimit (Solved examples) maxLevel
      space.grammar.terminals) :
    Delivers (maxLevel * max poolLimit 1) (enumerativeSearch space examples maxLevel poolLimit)
      fun report =>
        (report.result.isSome = true ↔ ∃ candidate, space.Admissible candidate ∧
          candidate.height ≤ maxLevel ∧ ∀ case ∈ examples, candidate.Solves case) ∧
        (∀ found, report.result = some found →
          space.Admissible found ∧ (∀ case ∈ examples, found.Solves case) ∧
          (∀ other, space.Admissible other → (∀ case ∈ examples, other.Solves case) →
            found.height ≤ other.height) ∧
          report.counters.levels = max 1 found.height) ∧
        (report.result = none → report.counters.levels = maxLevel) := by
  have typed := Grammar.typedPool_terminals space.grammar
  obtain ⟨levelRoom, workRoom⟩ := le_mul_max_one maxLevel poolLimit
  refine (enumerativeSearch_delivers bound levelRoom workRoom).imp fun report searched => ?_
  obtain ⟨result, counters⟩ := report
  obtain ⟨rfl, levels, _⟩ := searched
  simp only [← Candidate.isCorrect_eq_true_iff nonempty]
  refine ⟨explore_isSome_iff bound nonempty positive fit, ?_⟩
  rcases explore_cases bound nonempty rfl typed typed fit with
    ⟨level, _, found, first, before, ended⟩ | ⟨_, ended⟩
  · obtain ⟨admitted, low, correct⟩ := of_find?_eq_some first
    have grown : counters.levels = level + 1 := levels.trans (congrArg Prod.snd ended)
    have high : 0 < level → level < found.height := by
      intro later
      by_contra below
      have reached : found.height ≤ level - 1 + 1 := by omega
      exact find?_ne_none admitted reached correct (before (level - 1) (by omega))
    rw [ended]
    refine ⟨?_, nofun⟩
    rintro _ ⟨⟩
    refine ⟨admitted, correct, fun other possible right => ?_, ?_⟩
    · exact height_le_of_find? first possible (decide_eq_true right)
    · show counters.levels = max 1 found.height
      omega
  · have grown : counters.levels = maxLevel := levels.trans (congrArg Prod.snd ended)
    rw [ended]
    exact ⟨nofun, fun _ => grown⟩

/-- Two levels of sums and comparisons are searched for the variable plus two. -/
theorem enumerativeSearch_finds_plusTwo :
    0 < 2 ∧ plusTwo ≠ [] ∧ sumSpace.grammar.BoundBy plusTwo ∧
    sumSpace.RoundsFit plusTwo 100 (Solved plusTwo) 2 sumSpace.grammar.terminals ∧
    Delivers (2 * max 100 1) (enumerativeSearch sumSpace plusTwo 2 100) fun report =>
      (report.result.isSome = true ↔ ∃ candidate, sumSpace.Admissible candidate ∧
        candidate.height ≤ 2 ∧ ∀ case ∈ plusTwo, candidate.Solves case) ∧
      (∀ found, report.result = some found →
        sumSpace.Admissible found ∧ (∀ case ∈ plusTwo, found.Solves case) ∧
        (∀ other, sumSpace.Admissible other → (∀ case ∈ plusTwo, other.Solves case) →
          found.height ≤ other.height) ∧
        report.counters.levels = max 1 found.height) ∧
      (report.result = none → report.counters.levels = 2) := by
  have positive : 0 < 2 := by decide
  have nonempty : plusTwo ≠ [] := by decide
  have bound : sumSpace.grammar.BoundBy plusTwo := by decide
  have fit := sumSpace_roundsFit (Solved plusTwo)
  exact ⟨positive, nonempty, bound, fit,
    enumerativeSearch_complete_and_minimal sumSpace plusTwo 2 100 positive nonempty bound fit⟩

end SearchSpace

end ProgramSynthesis
