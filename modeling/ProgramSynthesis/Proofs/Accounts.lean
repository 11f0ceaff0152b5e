import ProgramSynthesis.Proofs.Levels

/-!
# What the counters of a search count

A level counts one round, the candidates it adds and those it keeps, none of which is more than the
size of the grown pool; so what several levels count is at most their number times the largest
pool. A search checks what its levels keep: all of it, until one level holds a correct candidate,
and of that level nothing after the first such candidate. The counters of a search are therefore
those of growing its levels, but for the checks, and the checks and what was left unchecked make
up what was kept.
-/

namespace ProgramSynthesis

namespace Counters

variable {counters : Counters} {limit growth size survivors : Nat}

/-- The counters with the checks forgotten. -/
def unchecked (counters : Counters) : Counters :=
  { counters with checked := 0 }

/-- Whether counters are those of levels under a pool limit: no pool is larger than the limit, and
no level adds or keeps more candidates than the largest pool has. -/
structure Balanced (limit : Nat) (counters : Counters) : Prop where
  /-- The largest pool is within the limit. -/
  largest_le : counters.largest ≤ limit
  /-- The levels add no more than the largest pool each. -/
  grown_le : counters.grown ≤ counters.levels * counters.largest
  /-- The levels keep no more than the largest pool each. -/
  kept_le : counters.kept ≤ counters.levels * counters.largest

/-- Nothing is counted at first. -/
theorem balanced_zero : zero.Balanced limit :=
  ⟨Nat.zero_le _, Nat.zero_le _, Nat.zero_le _⟩

/-- One level more adds at most the largest pool to a count. -/
theorem add_le_succ_mul_max {count levels largest amount : Nat}
    (counted : count ≤ levels * largest) (few : amount ≤ size) :
    count + amount ≤ (levels + 1) * max largest size :=
  calc
    count + amount ≤ levels * largest + size := Nat.add_le_add counted few
    _ ≤ levels * max largest size + max largest size :=
      Nat.add_le_add (Nat.mul_le_mul_left levels (Nat.le_max_left _ _)) (Nat.le_max_right _ _)
    _ = (levels + 1) * max largest size := (Nat.succ_mul _ _).symm

/-- A level within the limit that adds and keeps no more than its size keeps counters balanced. -/
theorem Balanced.afterLevel (balanced : counters.Balanced limit) (fits : size ≤ limit)
    (added : growth ≤ size) (kept : survivors ≤ size) :
    (counters.afterLevel growth size survivors).Balanced limit :=
  ⟨Nat.max_le.mpr ⟨balanced.largest_le, fits⟩, add_le_succ_mul_max balanced.grown_le added,
    add_le_succ_mul_max balanced.kept_le kept⟩

end Counters

namespace SearchSpace

variable {space : SearchSpace} {examples : List Example} {poolLimit rounds : Nat}
  {pool : List Candidate} {counters : Counters}

/-- What some levels have counted: the counters stay balanced, and unless a level was refused the
levels are as many as there were rounds. -/
structure CountsLevels (limit rounds : Nat) (counters : Counters)
    (report : Report (List Candidate)) : Prop where
  /-- The counters are balanced. -/
  balanced : report.counters.Balanced limit
  /-- No search for a branch condition is counted. -/
  separators_eq : report.counters.separators = counters.separators
  /-- There are no more levels than rounds. -/
  levels_le : report.counters.levels ≤ counters.levels + rounds
  /-- If no level was refused there are as many. -/
  levels_eq : report.result.isSome → report.counters.levels = counters.levels + rounds

/-- Below the largest word a round that fits is no smaller than what it adds and what it keeps, so
a level keeps counters balanced. -/
theorem countsLevels_of_growLevel {report : Report (List Candidate)}
    (typed : space.grammar.TypedPool pool) (bound : space.grammar.BoundBy examples)
    (small : poolLimit < maxCount) (balanced : counters.Balanced poolLimit)
    (grown : growLevel space examples poolLimit pool counters = .ok report) :
    CountsLevels poolLimit 1 counters report := by
  have shorter : (space.advance examples pool).length ≤
    pool.length + (space.additions pool).length := length_advance_le
  rw [growLevel_eq typed bound] at grown
  split at grown
  · rename_i fits
    obtain ⟨_, counted, same⟩ := bind_eq_ok_iff.mp grown
    obtain ⟨_, rfl⟩ := Counters.recordLevel_eq_ok_iff.mp counted
    cases same
    have added : min (space.additions pool).length maxCount ≤ space.roundSize pool := by
      rw [roundSize]
      omega
    have kept : (space.advance examples pool).length ≤ space.roundSize pool := by
      rw [roundSize] at fits ⊢
      omega
    exact ⟨balanced.afterLevel fits added kept, rfl, Nat.le_refl _, fun _ => rfl⟩
  · cases grown
    exact ⟨balanced, rfl, Nat.le_succ _, fun returned => absurd returned Bool.false_ne_true⟩

/-- So do several levels. -/
theorem countsLevels_of_growLevels {report : Report (List Candidate)}
    (typed : space.grammar.TypedPool pool) (bound : space.grammar.BoundBy examples)
    (small : poolLimit < maxCount) (balanced : counters.Balanced poolLimit)
    (grown : growLevels space examples poolLimit rounds pool counters = .ok report) :
    CountsLevels poolLimit rounds counters report := by
  induction rounds generalizing pool counters with
  | zero =>
    cases grown
    exact ⟨balanced, rfl, Nat.le_refl _, fun _ => rfl⟩
  | succ rounds ih =>
    obtain ⟨⟨next, leveled⟩, first, grown⟩ := bind_eq_ok_iff.mp grown
    have one := countsLevels_of_growLevel typed bound small balanced first
    have most : leveled.levels ≤ counters.levels + 1 := one.levels_le
    cases next with
    | none =>
      cases grown
      have fewer : leveled.levels ≤ counters.levels + (rounds + 1) := by omega
      exact ⟨one.balanced, one.separators_eq, fewer,
        fun returned => absurd returned Bool.false_ne_true⟩
    | some next =>
      have rest := ih (typedPool_of_growLevel typed bound first) one.balanced grown
      have further : report.counters.levels ≤ leveled.levels + rounds := rest.levels_le
      have exactly : leveled.levels = counters.levels + 1 := one.levels_eq rfl
      refine ⟨rest.balanced, rest.separators_eq.trans one.separators_eq, by omega, ?_⟩
      intro returned
      have last : report.counters.levels = leveled.levels + rounds := rest.levels_eq returned
      omega

/-- A level counts what it keeps, and does the same whatever has been checked before. -/
theorem growLevel_unchecked {next : List Candidate} {later : Counters}
    (grown : growLevel space examples poolLimit pool counters = .ok ⟨some next, later⟩) :
    growLevel space examples poolLimit pool counters.unchecked =
      .ok ⟨some next, later.unchecked⟩ ∧
    later.checked = counters.checked ∧ later.kept = counters.kept + next.length := by
  obtain ⟨growth, candidates, sized, fits, built, reduced, counted⟩ :=
    growLevel_eq_some_iff.mp grown
  obtain ⟨room, rfl⟩ := Counters.recordLevel_eq_ok_iff.mp counted
  have recounted : counters.unchecked.recordLevel growth (min (pool.length + growth) maxCount)
      next.length = .ok (counters.unchecked.afterLevel growth _ next.length) :=
    Counters.recordLevel_eq_ok_iff.mpr ⟨room, rfl⟩
  exact ⟨growLevel_eq_some_iff.mpr ⟨growth, candidates, sized, fits, built, reduced, recounted⟩,
    rfl, rfl⟩

/-- How the checks of a search end: nothing of its last pool is correct, or the first correct member
of it is found, and what stands after that is not checked. -/
inductive Checks (examples : List Example) (top : List Candidate) (report : Report Candidate) :
    Prop where
  /-- Everything that was kept has been checked. -/
  | all (nothing : report.result = none) (even : report.counters.checked = report.counters.kept)
  /-- Everything that was kept has been checked but for the candidates after the one found. -/
  | found {before after : List Candidate} {candidate : Candidate}
    (answer : report.result = some candidate) (place : top = before ++ candidate :: after)
    (wrong : ∀ earlier ∈ before, earlier.isCorrect examples = .ok false)
    (correct : candidate.isCorrect examples = .ok true)
    (left : report.counters.checked + after.length = report.counters.kept)

/-- A pool is checked up to its first correct member. -/
theorem checks_of_firstCorrect {report : Report Candidate}
    (even : counters.checked + pool.length = counters.kept)
    (checked : firstCorrect examples pool counters = .ok report) :
    Checks examples pool report ∧ report.counters.unchecked = counters.unchecked := by
  rcases firstCorrect_cases checked with
    ⟨rfl, _⟩ | ⟨before, found, after, rfl, rfl, wrong, correct⟩
  · exact ⟨.all rfl even, rfl⟩
  · rw [List.length_append, List.length_cons] at even
    have left : counters.checked + (1 + before.length) + after.length = counters.kept := by omega
    exact ⟨.found rfl rfl wrong correct left, rfl⟩

/-- A search counts what growing its levels counts, and what it checks of what they keep. Whenever
a level starts, the checks are even with what has been kept. -/
theorem exists_growLevels_of_searchLevels {report : Report Candidate}
    (even : counters.checked = counters.kept)
    (searched : searchLevels space examples poolLimit rounds pool counters = .ok report) :
    ∃ levels top, levels ≤ rounds ∧
      growLevels space examples poolLimit levels pool counters.unchecked =
        .ok ⟨some top, report.counters.unchecked⟩ ∧
      Checks examples top report := by
  induction rounds generalizing pool counters with
  | zero =>
    cases searched
    exact ⟨0, pool, Nat.le_refl _, rfl, .all rfl even⟩
  | succ rounds ih =>
    obtain ⟨⟨next, leveled⟩, grown, searched⟩ := bind_eq_ok_iff.mp searched
    cases next with
    | none =>
      cases searched
      rw [eq_of_growLevel_none grown]
      exact ⟨0, pool, Nat.zero_le _, rfl, .all rfl even⟩
    | some next =>
      obtain ⟨⟨result, counted⟩, checked, searched⟩ := bind_eq_ok_iff.mp searched
      obtain ⟨regrown, before, kept⟩ := growLevel_unchecked grown
      obtain ⟨ends, same⟩ := checks_of_firstCorrect (by omega) checked
      cases result with
      | some candidate =>
        cases searched
        refine ⟨1, next, Nat.succ_pos _, ?_, ends⟩
        simp only [growLevels, regrown, ok_bind, same]
      | none =>
        cases ends with
        | found answer => cases answer
        | all _ even =>
          obtain ⟨levels, top, few, climbs, ends⟩ := ih even searched
          refine ⟨levels + 1, top, Nat.succ_le_succ few, ?_, ends⟩
          rw [growLevels, regrown, ok_bind, ← same]
          exact climbs

/-- What a search from the terminals has counted. -/
structure Accounts (space : SearchSpace) (examples : List Example) (maxLevel poolLimit : Nat)
    (report : Report Candidate) : Prop where
  /-- The levels are within their bound. -/
  levels_le : report.counters.levels ≤ maxLevel
  /-- The counters are balanced. -/
  balanced : report.counters.Balanced poolLimit
  /-- No search for a branch condition is counted. -/
  separators_eq : report.counters.separators = 0
  /-- The counters are those of growing the levels, and what the levels kept has been checked. -/
  exists_top : ∃ top, growLevels space examples poolLimit report.counters.levels
      space.grammar.terminals .zero = .ok ⟨some top, report.counters.unchecked⟩ ∧
    Checks examples top report

/-- Below the largest word every search that returns keeps its accounts. -/
theorem accounts_of_enumerativeSearch {maxLevel : Nat} {report : Report Candidate}
    (bound : space.grammar.BoundBy examples) (small : poolLimit < maxCount)
    (searched : enumerativeSearch space examples maxLevel poolLimit = .ok report) :
    space.Accounts examples maxLevel poolLimit report := by
  obtain ⟨levels, top, few, grown, ends⟩ := exists_growLevels_of_searchLevels rfl searched
  obtain ⟨⟨largest, growth, kept⟩, separators, _, exactly⟩ := countsLevels_of_growLevels
    (Grammar.typedPool_terminals _) bound small Counters.balanced_zero grown
  have counted : report.counters.levels = levels := (exactly rfl).trans (Nat.zero_add levels)
  refine ⟨counted ▸ few, ⟨largest, growth, kept⟩, separators, top, ?_, ends⟩
  rw [counted]
  exact grown

end SearchSpace

end ProgramSynthesis
