import ProgramSynthesis.Proofs.Completeness
import ProgramSynthesis.Proofs.LargerBounds

/-!
# Larger search spaces

A search space is within another that declares its names and has its literals and its operators,
under a policy that restricts no operand position more. Then every admissible candidate is
admissible in the larger space too. The pools of the two searches are not
compared: reduction may have removed from the larger pool what the smaller one holds, but as long
as its rounds fit the larger search finds some correct candidate within the levels that the
smaller one needs.
-/

namespace ProgramSynthesis

namespace OperandSource

/-- How much a source offers, from variables to the whole pool. -/
def rank : OperandSource → Nat
  | names => 0
  | terminals => 1
  | pool => 2

/-- Variables are offered by every source, literals by all others, and the rest by the pool. -/
instance : LE OperandSource := ⟨fun source wider => source.rank ≤ wider.rank⟩

instance (source wider : OperandSource) : Decidable (source ≤ wider) :=
  inferInstanceAs (Decidable (source.rank ≤ wider.rank))

/-- Nothing offers more than the pool. -/
theorem le_pool (source : OperandSource) : source ≤ pool := by cases source <;> decide

/-- What a source allows, a wider one allows. -/
theorem Allows.mono {source wider : OperandSource} {operand : Candidate} (widens : source ≤ wider)
    (allowed : source.Allows operand) : wider.Allows operand := by
  cases wider with
  | pool => trivial
  | names =>
    cases source with
    | names => exact allowed
    | terminals => exact absurd widens (by decide)
    | pool => exact absurd widens (by decide)
  | terminals =>
    cases source with
    | names => exact .inl allowed
    | terminals => exact allowed
    | pool => exact absurd widens (by decide)

/-- Operands allowed position by position are allowed by wider sources. -/
theorem forall₂_allows_mono {sources widers : List OperandSource} {operands : List Candidate}
    (widens : List.Forall₂ (· ≤ ·) sources widers)
    (allowed : List.Forall₂ Allows sources operands) : List.Forall₂ Allows widers operands := by
  induction widens generalizing operands with
  | nil => exact allowed
  | cons first _ ih =>
    cases allowed with
    | cons operand later => exact .cons (operand.mono first) (ih later)

end OperandSource

namespace GrowthPolicy

/-- A policy is below another that offers as much for every operand of every operator. -/
instance : LE GrowthPolicy :=
  ⟨fun policy wider => ∀ op, List.Forall₂ (· ≤ ·) (policy.sources op) (wider.sources op)⟩

/-- Every policy is below the exhaustive one. -/
theorem le_exhaustive (policy : GrowthPolicy) : policy ≤ exhaustive := by
  intro op
  have counted : (policy.sources op).length = op.arity := (policy.accepts_sources op).1
  have pools : exhaustive.sources op = (policy.sources op).map fun _ => .pool := by
    rw [List.map_const', counted]
    rfl
  rw [pools, List.forall₂_map_right_iff, List.forall₂_same]
  exact fun source _ => source.le_pool

end GrowthPolicy

namespace SearchSpace

/-- When a search space is part of another. -/
structure Within (space wider : SearchSpace) : Prop where
  /-- Every declared variable is declared in the other. -/
  names : space.grammar.names ⊆ wider.grammar.names
  /-- Every listed literal is listed in the other. -/
  constants : space.grammar.constants ⊆ wider.grammar.constants
  /-- Every operand that is allowed is allowed in the other. -/
  policy : space.policy ≤ wider.policy
  /-- Every offered operator is offered in the other. -/
  ops : space.ops ⊆ wider.ops

/-- The same grammar and operators under another policy. -/
def withPolicy (space : SearchSpace) (policy : GrowthPolicy) : SearchSpace := { space with policy }

/-- A wider policy makes a larger search space. -/
theorem within_withPolicy (space : SearchSpace) {policy wider : GrowthPolicy}
    (widens : policy ≤ wider) : (space.withPolicy policy).Within (space.withPolicy wider) :=
  ⟨List.Subset.refl _, List.Subset.refl _, widens, List.Subset.refl _⟩

variable {space wider : SearchSpace} {examples : List Example}
  {poolLimit widerLimit maxLevel rounds : Nat} {pool : List Candidate} {found : Candidate}

/-- What is admissible is admissible in a larger space. -/
theorem Admissible.mono (within : space.Within wider) (admitted : space.Admissible found) :
    wider.Admissible found := by
  induction admitted with
  | var declared => exact .var (within.names declared)
  | number listed => exact .number (within.constants listed)
  | falsity => exact .falsity
  | node offered suited allowed _ ih =>
    have allowedThere := OperandSource.forall₂_allows_mono (within.policy _) allowed
    exact .node (within.ops offered) suited allowedThere ih

/-- An exploration that finds something finds it within the levels it has grown, of which there
is one at least. -/
theorem explore_levels (explored : (space.explore examples poolLimit rounds pool).1 = some found) :
    0 < (space.explore examples poolLimit rounds pool).2 ∧
    (space.explore examples poolLimit rounds pool).2 ≤ rounds ∧
    (space.explore examples poolLimit (space.explore examples poolLimit rounds pool).2 pool).1 =
      some found := by
  induction rounds generalizing pool with
  | zero => cases explored
  | succ rounds ih =>
    rw [explore] at explored ⊢
    by_cases fits : space.roundSize pool ≤ poolLimit
    · rw [if_pos fits] at explored ⊢
      cases first : (space.advance examples pool).find? (·.solves examples) with
      | some candidate =>
        rw [first] at explored
        simp only [first, explore, if_pos fits]
        exact ⟨Nat.one_pos, Nat.succ_pos _, explored⟩
      | none =>
        rw [first] at explored
        obtain ⟨_, short, again⟩ := ih explored
        simp only [first, explore, if_pos fits]
        exact ⟨Nat.succ_pos _, Nat.succ_le_succ short, again⟩
    · rw [if_neg fits] at explored
      cases explored

/-- A search that finds a candidate finds an admissible, correct one no higher than the levels it
has grown, of which there is one at least. -/
theorem admissible_of_levels {counters : Counters} (bound : space.grammar.BoundBy examples)
    (searched : enumerativeSearch space examples maxLevel poolLimit =
      .ok ⟨some found, counters⟩) :
    0 < counters.levels ∧ counters.levels ≤ maxLevel ∧ space.Admissible found ∧
      found.height ≤ counters.levels ∧ found.isCorrect examples = .ok true := by
  obtain ⟨explored, levels, _⟩ := (enumerativeSearch_delivers bound (Nat.le_max_left _ _)
    (Nat.le_max_right _ _)).of_ok searched
  obtain ⟨positive, short, again⟩ := explore_levels explored.symm
  rw [← levels] at positive short again
  obtain ⟨admitted, low⟩ := admissible_of_explore again
  exact ⟨positive, short, admitted, low, isCorrect_of_enumerativeSearch searched rfl⟩

/-- A search finds a candidate within some levels when its rounds fit up to these and there is an
admissible, correct candidate no higher. It does not use the levels that are left. -/
theorem enumerativeSearch_finds (bound : space.grammar.BoundBy examples) (nonempty : examples ≠ [])
    (positive : 0 < rounds) (levels : rounds ≤ maxLevel) (admitted : space.Admissible found)
    (low : found.height ≤ rounds) (correct : found.isCorrect examples = .ok true)
    (fit : space.RoundsFit examples poolLimit (Solved examples) rounds space.grammar.terminals) :
    Delivers (rounds * max poolLimit 1) (enumerativeSearch space examples maxLevel poolLimit)
      fun report => ∃ other, report.result = some other ∧ report.counters.levels ≤ rounds := by
  have finds := (explore_isSome_iff bound nonempty positive fit).mpr ⟨found, admitted, low, correct⟩
  obtain ⟨other, explored⟩ := Option.isSome_iff_exists.mp finds
  obtain ⟨levelRoom, workRoom⟩ := le_mul_max_one rounds poolLimit
  have delivered := (enumerativeSearch_delivers bound levelRoom workRoom).imp
    fun report searched => (⟨other, searched.1.trans explored, searched.2.2.levels_le⟩ :
      ∃ other, report.result = some other ∧ report.counters.levels ≤ rounds)
  have persists : ¬GivesUp (enumerativeSearch space examples rounds poolLimit) := by
    rintro ⟨counters, gaveUp⟩
    obtain ⟨_, found, _⟩ := delivered.of_ok gaveUp
    cases found
  rw [enumerativeSearch_eq_of_le (Nat.le_refl _) levels persists]
  exact delivered

/-- What is found in a search space takes no more levels in a larger one. -/
theorem delivers_of_within {counters : Counters} (nonempty : examples ≠ [])
    (bound : wider.grammar.BoundBy examples) (within : space.Within wider)
    (searched : enumerativeSearch space examples maxLevel poolLimit = .ok ⟨some found, counters⟩)
    (fit : wider.RoundsFit examples widerLimit (Solved examples) counters.levels
      wider.grammar.terminals) :
    Delivers (counters.levels * max widerLimit 1)
      (enumerativeSearch wider examples maxLevel widerLimit) fun report =>
        ∃ other, report.result = some other ∧ report.counters.levels ≤ counters.levels := by
  have boundWithin : space.grammar.BoundBy examples := fun case inside name declared =>
    bound case inside name (within.names declared)
  obtain ⟨positive, levels, admitted, low, correct⟩ := admissible_of_levels boundWithin searched
  exact enumerativeSearch_finds bound nonempty positive levels (admitted.mono within) low correct
    fit

/-- A larger search space never needs more levels. On at least one example, all of which bind the
declared names, let a search find a candidate, and let the rounds of a search in a larger space
fit its limit up to as many levels. Then the search in the larger space finds a candidate too,
within as many levels. In particular this holds of the exhaustive policy in place of the
restricted one. Only if the levels times the limit reach the largest machine word may a counter
overflow instead. -/
theorem larger_space_needs_no_more_levels (examples : List Example)
    (maxLevel poolLimit widerLimit : Nat) (nonempty : examples ≠ []) :
    (∀ space wider : SearchSpace, wider.grammar.BoundBy examples → space.Within wider →
      ∀ found counters,
        enumerativeSearch space examples maxLevel poolLimit = .ok ⟨some found, counters⟩ →
        wider.RoundsFit examples widerLimit (Solved examples) counters.levels
          wider.grammar.terminals →
        Delivers (counters.levels * max widerLimit 1)
          (enumerativeSearch wider examples maxLevel widerLimit) fun report =>
            ∃ other, report.result = some other ∧ report.counters.levels ≤ counters.levels) ∧
    ∀ space : SearchSpace, space.grammar.BoundBy examples → ∀ found counters,
      enumerativeSearch (space.withPolicy .restricted) examples maxLevel poolLimit =
        .ok ⟨some found, counters⟩ →
      (space.withPolicy .exhaustive).RoundsFit examples widerLimit (Solved examples)
        counters.levels space.grammar.terminals →
      Delivers (counters.levels * max widerLimit 1)
        (enumerativeSearch (space.withPolicy .exhaustive) examples maxLevel widerLimit)
        fun report =>
          ∃ other, report.result = some other ∧ report.counters.levels ≤ counters.levels := by
  constructor
  · intro space wider bound within found counters searched fit
    exact delivers_of_within nonempty bound within searched fit
  · intro space bound found counters searched fit
    have within := space.within_withPolicy (GrowthPolicy.le_exhaustive .restricted)
    exact delivers_of_within nonempty bound within searched fit

/-- Sums, comparisons and products without restrictions, and the literals one and two. -/
def widerSpace : SearchSpace := ⟨⟨["x"], [2, 1]⟩, .exhaustive, [.times, .lt, .plus]⟩

/-- Sums and comparisons over one literal are part of the wider space. -/
theorem within_widerSpace : sumSpace.Within widerSpace :=
  ⟨List.Subset.refl _, by decide, GrowthPolicy.le_exhaustive .restricted, by decide⟩

/-- The variable plus two, which the restricted policy finds at the second level, is found by
then in the wider space, and under the exhaustive policy. -/
theorem plusTwo_needs_no_more_levels :
    plusTwo ≠ [] ∧
    enumerativeSearch sumSpace plusTwo 3 100 = .ok ⟨some twoMore, twoLevels⟩ ∧
    (widerSpace.grammar.BoundBy plusTwo ∧ sumSpace.Within widerSpace ∧
      widerSpace.RoundsFit plusTwo 1000 (Solved plusTwo) twoLevels.levels
        widerSpace.grammar.terminals ∧
      Delivers (twoLevels.levels * max 1000 1) (enumerativeSearch widerSpace plusTwo 3 1000)
        fun report =>
          ∃ other, report.result = some other ∧ report.counters.levels ≤ twoLevels.levels) ∧
    sumSpace.grammar.BoundBy plusTwo ∧
    (sumSpace.withPolicy .exhaustive).RoundsFit plusTwo 1000 (Solved plusTwo) twoLevels.levels
      sumSpace.grammar.terminals ∧
    Delivers (twoLevels.levels * max 1000 1)
      (enumerativeSearch (sumSpace.withPolicy .exhaustive) plusTwo 3 1000) fun report =>
        ∃ other, report.result = some other ∧ report.counters.levels ≤ twoLevels.levels := by
  have nonempty : plusTwo ≠ [] := by decide
  obtain ⟨spaces, policies⟩ := larger_space_needs_no_more_levels plusTwo 3 100 1000 nonempty
  have searched : enumerativeSearch sumSpace plusTwo 3 100 = .ok ⟨some twoMore, twoLevels⟩ :=
    enumerativeSearch_plusTwo
  have bound : widerSpace.grammar.BoundBy plusTwo := by decide
  have widerFit : widerSpace.RoundsFit plusTwo 1000 (Solved plusTwo) 2
    widerSpace.grammar.terminals := roundsFit_two bound (by decide +kernel) (by decide +kernel)
  have plainBound : sumSpace.grammar.BoundBy plusTwo := by decide
  have plainFit : (sumSpace.withPolicy .exhaustive).RoundsFit plusTwo 1000 (Solved plusTwo) 2
    sumSpace.grammar.terminals :=
      roundsFit_two plainBound (by decide +kernel) (by decide +kernel)
  exact ⟨nonempty, searched,
    ⟨bound, within_widerSpace, widerFit,
      spaces _ _ bound within_widerSpace _ _ searched widerFit⟩,
    plainBound, plainFit, policies sumSpace plainBound _ _ searched plainFit⟩

end SearchSpace

end ProgramSynthesis
