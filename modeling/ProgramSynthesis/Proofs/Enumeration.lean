import Mathlib.Data.List.Basic
import ProgramSynthesis.Proofs.Admissible

/-!
# Plain growth enumerates by height

Each round of growth rebuilds every program of the rounds before it, behind the pool that it
starts from. So the pool after a number of rounds holds the admissible programs up to that
height, most of them many times, and what counts for their order is where each comes up first:
the programs of one height all do so before any program that is higher.
-/

namespace ProgramSynthesis

namespace SearchSpace

variable {space : SearchSpace} {rounds : Nat} {lower higher : Candidate}

/-- What a round of growth starts from comes up before what the round is the first to build. -/
theorem idxOf_expand_lt {pool : List Candidate} (old : lower ∈ pool) (new : higher ∉ pool) :
    (space.expand pool).idxOf lower < (space.expand pool).idxOf higher := by
  have early : (space.expand pool).idxOf lower < pool.length := by
    rw [expand, List.idxOf_append_of_mem old]
    exact List.idxOf_lt_length_of_mem old
  have late : pool.length ≤ (space.expand pool).idxOf higher := by
    rw [expand, List.idxOf_append_of_notMem new]
    exact Nat.le_add_right _ _
  exact Nat.lt_of_lt_of_le early late

/-- After rounds of plain growth from the terminals a program comes up before every program that
is higher. It takes fewer rounds, so where the higher one first comes up the lower one is old. -/
theorem idxOf_lt_idxOf_of_height_lt
    (inside : lower ∈ space.expand^[rounds] space.grammar.terminals)
    (later : higher ∈ space.expand^[rounds] space.grammar.terminals)
    (below : lower.height < higher.height) :
    (space.expand^[rounds] space.grammar.terminals).idxOf lower <
      (space.expand^[rounds] space.grammar.terminals).idxOf higher := by
  induction rounds with
  | zero =>
    have level : higher.height ≤ 0 := (mem_terminals_iff.mp later).2
    omega
  | succ rounds ih =>
    have admitted : space.Admissible lower := (mem_iterate_expand_iff.mp inside).1
    have high : higher.height ≤ rounds + 1 := (mem_iterate_expand_iff.mp later).2
    have low : lower.height ≤ rounds := by omega
    have old : lower ∈ space.expand^[rounds] space.grammar.terminals :=
      mem_iterate_expand_iff.mpr ⟨admitted, low⟩
    rw [Function.iterate_succ_apply']
    by_cases known : higher ∈ space.expand^[rounds] space.grammar.terminals
    · rw [expand, List.idxOf_append_of_mem old, List.idxOf_append_of_mem known]
      exact ih old known
    · exact idxOf_expand_lt old known

/-- What a search in pool order finds comes up no later than anything else that passes. -/
theorem idxOf_le_idxOf_of_find? {pool : List Candidate} {test : Candidate → Bool}
    {found other : Candidate} (first : pool.find? test = some found)
    (passes : test other = true) : pool.idxOf found ≤ pool.idxOf other := by
  induction pool with
  | nil => cases first
  | cons candidate pool ih =>
    rw [List.find?_cons] at first
    cases tested : test candidate with
    | true =>
      rw [tested] at first
      have same : candidate = found := Option.some.inj first
      rw [same, List.idxOf_cons_self]
      exact Nat.zero_le _
    | false =>
      rw [tested] at first
      have failsBefore : ∀ later, test later = true → candidate ≠ later := by
        rintro later accepted rfl
        rw [tested] at accepted
        cases accepted
      have notFound : candidate ≠ found := failsBefore found (List.find?_some first)
      have notOther : candidate ≠ other := failsBefore other passes
      rw [List.idxOf_cons_ne _ notFound, List.idxOf_cons_ne _ notOther]
      exact Nat.succ_le_succ (ih first)

/-- Plain growth is an exact enumeration by height. Rounds of growth from the terminals, with no
reduction in between, are performed without a fault; the pool then holds exactly the admissible
programs whose height is at most the number of rounds, and of two programs of different heights
the lower comes up first. -/
theorem growth_enumerates_by_height (space : SearchSpace) (rounds : Nat) :
    ∃ pool, space.growTimes rounds space.grammar.terminals = .ok pool ∧
      (∀ candidate, candidate ∈ pool ↔
        space.Admissible candidate ∧ candidate.height ≤ rounds) ∧
      ∀ lower ∈ pool, ∀ higher ∈ pool, lower.height < higher.height →
        pool.idxOf lower < pool.idxOf higher := by
  have grown : space.growTimes rounds space.grammar.terminals =
      .ok (space.expand^[rounds] space.grammar.terminals) :=
    growTimes_eq (Grammar.typedPool_terminals space.grammar)
  refine ⟨_, grown, fun candidate => mem_iterate_expand_iff, ?_⟩
  intro lower inside higher later below
  exact idxOf_lt_idxOf_of_height_lt inside later below

end SearchSpace

end ProgramSynthesis
