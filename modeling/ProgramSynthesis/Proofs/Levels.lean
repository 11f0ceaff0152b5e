import ProgramSynthesis.Proofs.Counters
import ProgramSynthesis.Proofs.Reduction
import ProgramSynthesis.Search.Enumerative

/-!
# Levels of a search

What a level that returns has done, and how the checking of a pool ends, is said once for every
pool by `growLevel_eq_ok_iff` and `firstCorrect_cases`. From a pool of well-typed candidates, on
examples that bind the declared names, a level is moreover a plain function of the pool, `advance`,
that is taken exactly when the grown pool fits the limit. `climb` and `explore` are the runs over
several levels as plain functions: without checks, and stopping at the first correct candidate. The
searches deliver what these functions say, and their counters stay within one pool limit of work for
each round.
-/

namespace ProgramSynthesis

/-- Whether a candidate is known to be correct on every example. -/
def Candidate.solves (candidate : Candidate) (examples : List Example) : Bool :=
  decide (candidate.isCorrect examples = .ok true)

/-- A well-typed candidate has a verdict. -/
theorem Grammar.WellTyped.isCorrect {grammar : Grammar} {candidate : Candidate}
    {examples : List Example} (typed : grammar.WellTyped candidate)
    (bound : grammar.BoundBy examples) :
    candidate.isCorrect examples = .ok (candidate.solves examples) := by
  obtain ⟨vector, returned, _⟩ := typed.outputs bound
  have verdict := Candidate.isCorrect_of_outputs returned
  rw [Candidate.solves, verdict]
  simp

/-- How checking a pool ends: no member is correct and all are counted, or the first that is correct
is found and those up to it are counted. -/
theorem firstCorrect_cases {examples : List Example} {pool : List Candidate} {counters : Counters}
    {report : Report Candidate} (checked : firstCorrect examples pool counters = .ok report) :
    (report = ⟨none, counters.afterChecks pool.length⟩ ∧
      ∀ candidate ∈ pool, candidate.isCorrect examples = .ok false) ∨
    ∃ before found after, pool = before ++ found :: after ∧
      report = ⟨some found, counters.afterChecks (1 + before.length)⟩ ∧
      (∀ candidate ∈ before, candidate.isCorrect examples = .ok false) ∧
      found.isCorrect examples = .ok true := by
  induction pool generalizing counters with
  | nil =>
    cases checked
    exact .inl ⟨rfl, List.forall_mem_nil _⟩
  | cons candidate pool ih =>
    obtain ⟨counted, recorded, checked⟩ := bind_eq_ok_iff.mp checked
    obtain ⟨verdict, decided, checked⟩ := bind_eq_ok_iff.mp checked
    obtain rfl : counted = counters.afterChecks 1 := by
      rw [Counters.recordChecks_eq] at recorded
      split at recorded
      · exact (Except.ok.inj recorded).symm
      · cases recorded
    cases verdict with
    | true =>
      cases checked
      exact .inr ⟨[], candidate, pool, rfl, rfl, List.forall_mem_nil _, decided⟩
    | false =>
      rcases ih checked with ⟨same, wrong⟩ | ⟨before, found, after, place, same, wrong, correct⟩
      · rw [Counters.afterChecks_afterChecks, Nat.add_comm] at same
        exact .inl ⟨same, List.forall_mem_cons.mpr ⟨decided, wrong⟩⟩
      · rw [Counters.afterChecks_afterChecks, Nat.add_comm 1 before.length] at same
        exact .inr ⟨candidate :: before, found, after, congrArg (candidate :: ·) place, same,
          List.forall_mem_cons.mpr ⟨decided, wrong⟩, correct⟩

namespace SearchSpace

variable {space : SearchSpace} {examples : List Example} {poolLimit : Nat}
  {pool : List Candidate}

/-- What a level that returns has done: a round that would exceed the limit is not performed, and
any other is grown, reduced and counted. -/
theorem growLevel_eq_ok_iff {counters : Counters} {report : Report (List Candidate)} :
    growLevel space examples poolLimit pool counters = .ok report ↔
      ∃ growth, space.growthSize pool = .ok growth ∧
        ((poolLimit < min (pool.length + growth) maxCount ∧ report = ⟨none, counters⟩) ∨
          min (pool.length + growth) maxCount ≤ poolLimit ∧ ∃ candidates survivors later,
            space.grow pool = .ok candidates ∧ reduce candidates examples = .ok survivors ∧
            counters.recordLevel growth (min (pool.length + growth) maxCount) survivors.length =
              .ok later ∧ report = ⟨some survivors, later⟩) := by
  rw [growLevel, bind_eq_ok_iff]
  refine exists_congr fun growth => and_congr_right fun _ => ?_
  by_cases large : poolLimit < min (pool.length + growth) maxCount
  · rw [if_pos large]
    constructor
    · rintro ⟨⟩
      exact .inl ⟨large, rfl⟩
    · rintro (⟨_, rfl⟩ | ⟨fits, _⟩)
      · rfl
      · exact absurd large (Nat.not_lt.mpr fits)
  · rw [if_neg large]
    constructor
    · intro grown
      obtain ⟨candidates, built, grown⟩ := bind_eq_ok_iff.mp grown
      obtain ⟨survivors, reduced, grown⟩ := bind_eq_ok_iff.mp grown
      obtain ⟨later, counted, same⟩ := bind_eq_ok_iff.mp grown
      cases same
      have fits : min (pool.length + growth) maxCount ≤ poolLimit := Nat.not_lt.mp large
      exact .inr ⟨fits, candidates, survivors, later, built, reduced, counted, rfl⟩
    · rintro (⟨more, _⟩ | ⟨_, candidates, survivors, later, built, reduced, counted, rfl⟩)
      · exact absurd more large
      · rw [built, ok_bind, reduced, ok_bind, counted]
        rfl

/-- What a level that is performed has done. -/
theorem growLevel_eq_some_iff {counters later : Counters} {next : List Candidate} :
    growLevel space examples poolLimit pool counters = .ok ⟨some next, later⟩ ↔
      ∃ growth candidates, space.growthSize pool = .ok growth ∧
        min (pool.length + growth) maxCount ≤ poolLimit ∧ space.grow pool = .ok candidates ∧
        reduce candidates examples = .ok next ∧
        counters.recordLevel growth (min (pool.length + growth) maxCount) next.length =
          .ok later := by
  rw [growLevel_eq_ok_iff]
  constructor
  · rintro ⟨growth, sized, ⟨_, same⟩ | ⟨fits, candidates, _, _, built, reduced, counted, same⟩⟩
    · cases same
    · cases same
      exact ⟨growth, candidates, sized, fits, built, reduced, counted⟩
  · rintro ⟨growth, candidates, sized, fits, built, reduced, counted⟩
    exact ⟨growth, sized, .inr ⟨fits, candidates, next, later, built, reduced, counted, rfl⟩⟩

/-- A level that is refused counts nothing. -/
theorem eq_of_growLevel_none {counters later : Counters}
    (refused : growLevel space examples poolLimit pool counters = .ok ⟨none, later⟩) :
    later = counters := by
  obtain ⟨_, _, ⟨_, same⟩ | ⟨_, _, _, _, _, _, _, same⟩⟩ := growLevel_eq_ok_iff.mp refused
  · cases same
    rfl
  · cases same

/-- Whether a round of growth from a pool stays within the limit. Sizes are counted up to the
largest machine word. -/
def Fits (space : SearchSpace) (poolLimit : Nat) (pool : List Candidate) : Prop :=
  ∃ grown, space.grow pool = .ok grown ∧ min grown.length maxCount ≤ poolLimit

/-- The size of a round of growth, counted up to the largest machine word. -/
def roundSize (space : SearchSpace) (pool : List Candidate) : Nat :=
  min (pool.length + (space.additions pool).length) maxCount

/-- The pool one level further. -/
def advance (space : SearchSpace) (examples : List Example) (pool : List Candidate) :
    List Candidate :=
  firsts (·.behaviour examples) [] (pool ++ space.additions pool)

/-- A round from a well-typed pool fits when its size does. -/
theorem fits_iff (typed : space.grammar.TypedPool pool) :
    space.Fits poolLimit pool ↔ space.roundSize pool ≤ poolLimit := by
  simp [Fits, grow_eq typed.declaresHeads, roundSize]

/-- A level keeps a pool well typed. -/
theorem typedPool_advance (typed : space.grammar.TypedPool pool) :
    space.grammar.TypedPool (space.advance examples pool) :=
  (typedPool_append_additions typed).firsts

/-- A level keeps no more candidates than the grown pool has. -/
theorem length_advance_le :
    (space.advance examples pool).length ≤ pool.length + (space.additions pool).length := by
  have shorter : (space.advance examples pool).length ≤ (pool ++ space.additions pool).length :=
    (firsts_sublist _).length_le
  rwa [List.length_append] at shorter

/-- One level from a pool whose variables are declared: refused without a trace when the round
does not fit, and else the reduction of the grown pool. -/
theorem growLevel_eq_of_declares (declared : space.grammar.DeclaresHeads pool)
    (counters : Counters) :
    growLevel space examples poolLimit pool counters =
      if space.roundSize pool ≤ poolLimit then do
        let survivors ← reduce (pool ++ space.additions pool) examples
        return ⟨some survivors, ← counters.recordLevel (min (space.additions pool).length maxCount)
          (space.roundSize pool) survivors.length⟩
      else .ok ⟨none, counters⟩ := by
  have size : min (pool.length + min (space.additions pool).length maxCount) maxCount =
      space.roundSize pool := by
    rw [roundSize]
    omega
  rw [growLevel, growthSize_eq declared, ok_bind, size]
  by_cases fits : space.roundSize pool ≤ poolLimit
  · rw [if_neg (Nat.not_lt.mpr fits), if_pos fits, grow_eq declared, ok_bind]
  · rw [if_pos (Nat.lt_of_not_le fits), if_neg fits]
    rfl

/-- One level from a well-typed pool, which no reduction refuses. -/
theorem growLevel_eq (typed : space.grammar.TypedPool pool)
    (bound : space.grammar.BoundBy examples) (counters : Counters) :
    growLevel space examples poolLimit pool counters =
      if space.roundSize pool ≤ poolLimit then do
        return ⟨some (space.advance examples pool), ← counters.recordLevel
          (min (space.additions pool).length maxCount) (space.roundSize pool)
          (space.advance examples pool).length⟩
      else .ok ⟨none, counters⟩ := by
  rw [growLevel_eq_of_declares typed.declaresHeads,
    (typedPool_append_additions typed).reduce_eq bound]
  rfl

/-- A level that is performed keeps a pool well typed. -/
theorem typedPool_of_growLevel {counters later : Counters} {next : List Candidate}
    (typed : space.grammar.TypedPool pool) (bound : space.grammar.BoundBy examples)
    (grown : growLevel space examples poolLimit pool counters = .ok ⟨some next, later⟩) :
    space.grammar.TypedPool next := by
  rw [growLevel_eq typed bound] at grown
  split at grown
  · obtain ⟨_, _, same⟩ := bind_eq_ok_iff.mp grown
    cases same
    exact typedPool_advance typed
  · cases grown

/-- A level within the bound advances the pool and is counted exactly. Below the largest word the
size is exact; a size that is the largest word exhausts the bound. -/
theorem growLevel_delivers {counters : Counters} {budget levels work separators : Nat}
    (typed : space.grammar.TypedPool pool) (bound : space.grammar.BoundBy examples)
    (fits : space.roundSize pool ≤ poolLimit) (used : counters.AtMost levels work separators)
    (levelRoom : levels + 1 ≤ budget) (workRoom : work + poolLimit ≤ budget) :
    Delivers budget (growLevel space examples poolLimit pool counters) fun report =>
      report = ⟨some (space.advance examples pool), counters.afterLevel
        (min (space.additions pool).length maxCount) (space.roundSize pool)
        (space.advance examples pool).length⟩ ∧
      (space.advance examples pool).length ≤ poolLimit := by
  have shorter : (space.advance examples pool).length ≤
    pool.length + (space.additions pool).length := length_advance_le
  obtain ⟨levelsUsed, grownUsed, keptUsed, _, _⟩ := used
  rw [growLevel_eq typed bound, if_pos fits]
  rw [roundSize] at fits
  refine (Counters.recordLevel_delivers (by omega) (by omega) (by omega)).bind
    fun later counted => .ok ⟨by rw [counted.1], ?_⟩
  have kept := counted.2
  omega

/-- The counters after a level have used one pool limit of work more. -/
theorem atMost_afterLevel {counters : Counters} {levels work separators survivors : Nat}
    (fits : space.roundSize pool ≤ poolLimit) (used : counters.AtMost levels work separators)
    (few : survivors ≤ poolLimit) :
    (counters.afterLevel (min (space.additions pool).length maxCount) (space.roundSize pool)
      survivors).AtMost (levels + 1) (work + poolLimit) separators := by
  obtain ⟨levelsUsed, grownUsed, keptUsed, checkedUsed, separatorsUsed⟩ := used
  rw [roundSize] at fits
  constructor <;> simp only [Counters.afterLevel] <;> omega

/-- Checking the survivors of a level stays within the pool limit that its round has used. -/
theorem atMost_afterChecks {counters : Counters} {levels work separators survivors checks : Nat}
    (fits : space.roundSize pool ≤ poolLimit) (used : counters.AtMost levels work separators)
    (few : survivors ≤ poolLimit) (short : checks ≤ survivors) :
    ((counters.afterLevel (min (space.additions pool).length maxCount) (space.roundSize pool)
      survivors).afterChecks checks).AtMost (levels + 1) (work + poolLimit) separators := by
  have leveled := atMost_afterLevel fits used few
  have checked := used.checked_le
  refine ⟨leveled.levels_le, leveled.grown_le, leveled.kept_le, ?_, leveled.separators_le⟩
  rw [Counters.afterChecks_checked, Counters.afterLevel_checked]
  omega

/-- The pool after a number of levels, if every round fits. -/
def climb (space : SearchSpace) (examples : List Example) (poolLimit : Nat) :
    Nat → List Candidate → Option (List Candidate)
  | 0, pool => some pool
  | rounds + 1, pool =>
    if space.roundSize pool ≤ poolLimit then
      space.climb examples poolLimit rounds (space.advance examples pool)
    else
      none

/-- A climb goes on from the next level of a pool whose round fits. -/
theorem climb_succ_eq_some_iff {rounds : Nat} {top : List Candidate} :
    space.climb examples poolLimit (rounds + 1) pool = some top ↔
      space.roundSize pool ≤ poolLimit ∧
        space.climb examples poolLimit rounds (space.advance examples pool) = some top := by
  rw [climb]
  by_cases fits : space.roundSize pool ≤ poolLimit
  · simp [fits]
  · simp [fits]

/-- Levels keep a pool well typed. -/
theorem typedPool_of_climb {rounds : Nat} {top : List Candidate}
    (typed : space.grammar.TypedPool pool)
    (climbed : space.climb examples poolLimit rounds pool = some top) :
    space.grammar.TypedPool top := by
  induction rounds generalizing pool with
  | zero => exact Option.some.inj climbed ▸ typed
  | succ rounds ih =>
    obtain ⟨_, climbed⟩ := climb_succ_eq_some_iff.mp climbed
    exact ih (typedPool_advance typed) climbed

/-- Levels that are performed keep a pool well typed. -/
theorem typedPool_of_growLevels {rounds : Nat} {counters later : Counters} {top : List Candidate}
    (typed : space.grammar.TypedPool pool) (bound : space.grammar.BoundBy examples)
    (grown : growLevels space examples poolLimit rounds pool counters = .ok ⟨some top, later⟩) :
    space.grammar.TypedPool top := by
  induction rounds generalizing pool counters with
  | zero =>
    cases grown
    exact typed
  | succ rounds ih =>
    obtain ⟨⟨next, leveled⟩, first, grown⟩ := bind_eq_ok_iff.mp grown
    cases next with
    | none => cases grown
    | some next => exact ih (typedPool_of_growLevel typed bound first) grown

/-- A run over several levels gives the pool it climbs to, and its counters use one pool limit
of work for each round. -/
theorem growLevels_delivers {budget rounds : Nat} (bound : space.grammar.BoundBy examples) :
    ∀ {pool : List Candidate} {counters : Counters} {levels work separators : Nat},
    space.grammar.TypedPool pool → counters.AtMost levels work separators →
    levels + rounds ≤ budget → work + rounds * poolLimit ≤ budget →
    Delivers budget (growLevels space examples poolLimit rounds pool counters) fun report =>
      report.result = space.climb examples poolLimit rounds pool ∧
      report.counters.AtMost (levels + rounds) (work + rounds * poolLimit) separators ∧
      report.counters.checked = counters.checked ∧
      ∀ top, report.result = some top → top.length ≤ max poolLimit pool.length := by
  induction rounds with
  | zero =>
    intro pool counters levels work separators _ used _ _
    refine .ok ⟨rfl, used.mono (by omega) (by omega) (Nat.le_refl _), rfl, ?_⟩
    intro top same
    cases same
    exact Nat.le_max_right _ _
  | succ rounds ih =>
    intro pool counters levels work separators typed used levelRoom workRoom
    rw [Nat.add_one_mul] at workRoom ⊢
    rw [growLevels, climb]
    by_cases fits : space.roundSize pool ≤ poolLimit
    · rw [if_pos fits]
      refine (growLevel_delivers typed bound fits used (by omega) (by omega)).bind
        fun report grown => ?_
      obtain ⟨rfl, few⟩ := grown
      refine (ih (typedPool_advance typed) (atMost_afterLevel fits used few) (by omega)
        (by omega)).imp fun later climbed => ?_
      obtain ⟨same, spent, checks, short⟩ := climbed
      refine ⟨same, spent.mono (by omega) (by omega) (Nat.le_refl _), checks, ?_⟩
      intro top reached
      have shorter := short top reached
      omega
    · rw [if_neg fits, growLevel_eq typed bound, if_neg fits]
      refine .ok ⟨rfl, used.mono (by omega) (by omega) (Nat.le_refl _), rfl, fun top none => ?_⟩
      cases none

/-- How many members of a pool are checked: all those up to the first that is correct. -/
def checksOf (examples : List Example) (pool : List Candidate) : Nat :=
  min pool.length ((pool.takeWhile fun candidate => !candidate.solves examples).length + 1)

/-- No more members of a pool are checked than there are. -/
theorem checksOf_le : checksOf examples pool ≤ pool.length := Nat.min_le_left _ _

/-- A correct member is the last that is checked. -/
theorem checksOf_cons_of_solves {candidate : Candidate}
    (solved : candidate.solves examples = true) : checksOf examples (candidate :: pool) = 1 := by
  simp [checksOf, solved]

/-- After a member that is not correct the others are checked. -/
theorem checksOf_cons_of_not_solves {candidate : Candidate}
    (unsolved : candidate.solves examples = false) :
    checksOf examples (candidate :: pool) = 1 + checksOf examples pool := by
  simp only [checksOf, unsolved, List.length_cons, List.takeWhile_cons, Bool.not_false, ↓reduceIte]
  omega

/-- The first correct member of a well-typed pool is found and the checks are counted, unless
their number leaves its word. -/
theorem firstCorrect_eq {counters : Counters} (typed : space.grammar.TypedPool pool)
    (bound : space.grammar.BoundBy examples) :
    firstCorrect examples pool counters =
      if pool = [] ∨ counters.checked + checksOf examples pool ≤ maxCount then
        .ok ⟨pool.find? (·.solves examples), counters.afterChecks (checksOf examples pool)⟩
      else
        .error (.overflow .add) := by
  induction pool generalizing counters with
  | nil => rfl
  | cons candidate pool ih =>
    have rest : space.grammar.TypedPool pool := fun other inside =>
      typed other (List.mem_cons_of_mem candidate inside)
    rw [firstCorrect, Counters.recordChecks_eq, List.find?_cons]
    by_cases room : counters.checked + 1 ≤ maxCount
    · rw [if_pos room, ok_bind, (typed candidate List.mem_cons_self).isCorrect bound, ok_bind]
      cases verdict : candidate.solves examples with
      | true =>
        have fits : candidate :: pool = [] ∨ counters.checked + 1 ≤ maxCount := .inr room
        rw [checksOf_cons_of_solves verdict, if_pos fits]
        rfl
      | false =>
        have same : (candidate :: pool = [] ∨
            counters.checked + (1 + checksOf examples pool) ≤ maxCount) ↔
            (pool = [] ∨ counters.checked + 1 + checksOf examples pool ≤ maxCount) := by
          rw [Nat.add_assoc]
          refine ⟨fun fits => .inr (fits.resolve_left (List.cons_ne_nil _ _)), fun fits => .inr ?_⟩
          rcases fits with rfl | fits
          · exact room
          · exact fits
        simp only [checksOf_cons_of_not_solves verdict, same, Bool.false_eq_true, ↓reduceIte,
          ih rest, Counters.afterChecks, Nat.add_assoc]
    · have large : ¬(candidate :: pool = [] ∨
          counters.checked + checksOf examples (candidate :: pool) ≤ maxCount) := by
        have some : 1 ≤ checksOf examples (candidate :: pool) := by
          simp [checksOf]
        rintro (none | fits)
        · cases none
        · omega
      rw [if_neg room, if_neg large]
      rfl

/-- Checking a pool within the bound finds its first correct member, and the checks are
counted. -/
theorem firstCorrect_delivers {budget : Nat} {counters : Counters}
    (typed : space.grammar.TypedPool pool) (bound : space.grammar.BoundBy examples)
    (room : counters.checked + pool.length ≤ budget) :
    Delivers budget (firstCorrect examples pool counters) fun report =>
      report = ⟨pool.find? (·.solves examples), counters.afterChecks (checksOf examples pool)⟩ := by
  have few : checksOf examples pool ≤ pool.length := checksOf_le
  rw [firstCorrect_eq typed bound]
  split
  · exact .ok rfl
  · rename_i large
    have overflows := (not_or.mp large).2
    exact .inr ⟨by omega, rfl⟩

/-- The first correct candidate level by level, and the number of levels grown. -/
def explore (space : SearchSpace) (examples : List Example) (poolLimit : Nat) :
    Nat → List Candidate → Option Candidate × Nat
  | 0, _ => (none, 0)
  | rounds + 1, pool =>
    if space.roundSize pool ≤ poolLimit then
      match (space.advance examples pool).find? (·.solves examples) with
      | some found => (some found, 1)
      | none =>
        let later := space.explore examples poolLimit rounds (space.advance examples pool)
        (later.1, later.2 + 1)
    else
      (none, 0)

/-- What is explored from a well-typed pool is well typed. -/
theorem wellTyped_of_explore {rounds : Nat} {found : Candidate}
    (typed : space.grammar.TypedPool pool)
    (explored : (space.explore examples poolLimit rounds pool).1 = some found) :
    space.grammar.WellTyped found := by
  induction rounds generalizing pool with
  | zero => cases explored
  | succ rounds ih =>
    have advanced : space.grammar.TypedPool (space.advance examples pool) :=
      typedPool_advance typed
    rw [explore] at explored
    split at explored
    · split at explored
      · rename_i candidate first
        cases explored
        exact advanced found (List.mem_of_find?_eq_some first)
      · exact ih advanced explored
    · cases explored

/-- A level of a search from a well-typed pool, with growth as a plain function. -/
theorem searchLevels_succ_eq {rounds : Nat} {counters : Counters}
    (typed : space.grammar.TypedPool pool) (bound : space.grammar.BoundBy examples) :
    searchLevels space examples poolLimit (rounds + 1) pool counters =
      if space.roundSize pool ≤ poolLimit then do
        let counted ← counters.recordLevel (min (space.additions pool).length maxCount)
          (space.roundSize pool) (space.advance examples pool).length
        match ← firstCorrect examples (space.advance examples pool) counted with
        | ⟨some found, later⟩ => return ⟨some found, later⟩
        | ⟨none, later⟩ =>
          searchLevels space examples poolLimit rounds (space.advance examples pool) later
      else
        .ok ⟨none, counters⟩ := by
  rw [searchLevels, growLevel_eq typed bound]
  split
  · cases counters.recordLevel (min (space.additions pool).length maxCount)
      (space.roundSize pool) (space.advance examples pool).length <;> rfl
  · rfl

/-- A search gives what it explores, and its counters use one pool limit of work for each
round. -/
theorem searchLevels_delivers {budget rounds : Nat} (bound : space.grammar.BoundBy examples) :
    ∀ {pool : List Candidate} {counters : Counters} {levels work separators : Nat},
    space.grammar.TypedPool pool → counters.AtMost levels work separators →
    levels + rounds ≤ budget → work + rounds * poolLimit ≤ budget →
    Delivers budget (searchLevels space examples poolLimit rounds pool counters) fun report =>
      report.result = (space.explore examples poolLimit rounds pool).1 ∧
      report.counters.levels =
        counters.levels + (space.explore examples poolLimit rounds pool).2 ∧
      report.counters.AtMost (levels + rounds) (work + rounds * poolLimit) separators := by
  induction rounds with
  | zero =>
    intro pool counters levels work separators _ used _ _
    exact .ok ⟨rfl, rfl, used.mono (by omega) (by omega) (Nat.le_refl _)⟩
  | succ rounds ih =>
    intro pool counters levels work separators typed used levelRoom workRoom
    rw [Nat.add_one_mul] at workRoom ⊢
    rw [searchLevels, explore]
    by_cases fits : space.roundSize pool ≤ poolLimit
    · rw [if_pos fits]
      refine (growLevel_delivers typed bound fits used (by omega) (by omega)).bind
        fun report grown => ?_
      obtain ⟨rfl, few⟩ := grown
      have advanced : space.grammar.TypedPool (space.advance examples pool) :=
        typedPool_advance typed
      have spent := used.checked_le
      refine (firstCorrect_delivers advanced bound ?_).bind fun report checked => ?_
      · rw [Counters.afterLevel_checked]
        omega
      have after : report.counters.AtMost (levels + 1) (work + poolLimit) separators := by
        rw [checked]
        exact atMost_afterChecks fits used few checksOf_le
      have grown : report.counters.levels = counters.levels + 1 := by rw [checked]; rfl
      obtain ⟨result, later⟩ := report
      cases found : (space.advance examples pool).find? (·.solves examples) with
      | some candidate =>
        obtain rfl : result = some candidate := (congrArg Report.result checked).trans found
        exact .ok ⟨rfl, grown, after.mono (by omega) (by omega) (Nat.le_refl _)⟩
      | none =>
        obtain rfl : result = none := (congrArg Report.result checked).trans found
        refine (ih advanced after (by omega) (by omega)).imp fun report explored => ?_
        obtain ⟨same, count, spent⟩ := explored
        refine ⟨same, ?_, spent.mono (by omega) (by omega) (Nat.le_refl _)⟩
        rw [count, grown, Nat.add_assoc, Nat.add_comm 1]
    · rw [if_neg fits, growLevel_eq typed bound, if_neg fits]
      exact .ok ⟨rfl, rfl, used.mono (by omega) (by omega) (Nat.le_refl _)⟩

/-- Where the levels of a run can be counted, so can the checks of a search that starts with the
same levels: it checks no more candidates than are kept. -/
theorem exists_searchLevels_of_growLevels {rounds : Nat} (bound : space.grammar.BoundBy examples) :
    ∀ {pool top : List Candidate} {counters later counted : Counters},
    space.grammar.TypedPool pool →
    growLevels space examples poolLimit rounds pool counters = .ok ⟨some top, later⟩ →
    counted.levels = counters.levels → counted.grown = counters.grown →
    counted.kept = counters.kept → counted.checked ≤ counted.kept →
    ∃ report, searchLevels space examples poolLimit rounds pool counted = .ok report := by
  induction rounds with
  | zero =>
    intro pool top counters later counted _ _ _ _ _ _
    exact ⟨_, rfl⟩
  | succ rounds ih =>
    intro pool top counters later counted typed grown levels growth kept checked
    have advanced : space.grammar.TypedPool (space.advance examples pool) :=
      typedPool_advance typed
    rw [growLevels, growLevel_eq typed bound] at grown
    rw [searchLevels, growLevel_eq typed bound]
    by_cases fits : space.roundSize pool ≤ poolLimit
    · rw [if_pos fits] at grown ⊢
      obtain ⟨_, leveled, grown⟩ := bind_eq_ok_iff.mp grown
      obtain ⟨recorded, counts, leveled⟩ := bind_eq_ok_iff.mp leveled
      cases leveled
      obtain ⟨room, rfl⟩ := Counters.recordLevel_eq_ok_iff.mp counts
      rw [← levels, ← growth, ← kept] at room
      have few : checksOf examples (space.advance examples pool) ≤
        (space.advance examples pool).length := checksOf_le
      simp only [Counters.recordLevel_eq_ok_iff.mpr ⟨room, rfl⟩, ok_bind, pure_eq_ok]
      rw [firstCorrect_eq advanced bound, Counters.afterLevel_checked, if_pos (.inr (by omega)),
        ok_bind]
      cases (space.advance examples pool).find? (·.solves examples) with
      | some found => exact ⟨_, rfl⟩
      | none =>
        apply ih advanced grown
        · exact congrArg (· + 1) levels
        · exact congrArg (· + _) growth
        · exact congrArg (· + _) kept
        · simp only [Counters.afterChecks, Counters.afterLevel]
          omega
    · rw [if_neg fits] at grown
      cases grown

/-- The product of the rounds of a search and its pool limit has room for the rounds and for
their work. -/
theorem le_mul_max_one (rounds poolLimit : Nat) : rounds ≤ rounds * max poolLimit 1 ∧
    rounds * poolLimit ≤ rounds * max poolLimit 1 :=
  ⟨Nat.le_mul_of_pos_right rounds (Nat.le_max_right _ _),
    Nat.mul_le_mul_left rounds (Nat.le_max_left _ _)⟩

/-- A search from the terminals delivers what it explores, with counters that start at zero. -/
theorem enumerativeSearch_delivers {maxLevel budget : Nat} (bound : space.grammar.BoundBy examples)
    (levelRoom : maxLevel ≤ budget) (workRoom : maxLevel * poolLimit ≤ budget) :
    Delivers budget (enumerativeSearch space examples maxLevel poolLimit) fun report =>
      report.result = (space.explore examples poolLimit maxLevel space.grammar.terminals).1 ∧
      report.counters.levels =
        (space.explore examples poolLimit maxLevel space.grammar.terminals).2 ∧
      report.counters.AtMost maxLevel (maxLevel * poolLimit) 0 := by
  refine (searchLevels_delivers bound (Grammar.typedPool_terminals _)
    (Counters.atMost_zero 0 0 0) (by omega) (by omega)).imp fun report searched => ?_
  obtain ⟨result, levels, spent⟩ := searched
  refine ⟨result, ?_, spent.mono (by omega) (by omega) (Nat.le_refl _)⟩
  rw [levels]
  exact Nat.zero_add _

end SearchSpace

end ProgramSynthesis
