import ProgramSynthesis.Proofs.Levels

/-!
# The pool limit

Before a level is grown its size is counted, with every product and every sum cut off at the
largest word; the level itself is built by other code. Here the two are tied together. The count
is the number of candidates that growth adds, cut off once, so a limit below the largest word is
compared with the true size: a level that would exceed it is refused and counted nowhere, and any
other level is reduced and counted exactly. None of this needs a well-typed pool.
-/

namespace ProgramSynthesis

namespace SearchSpace

variable {space : SearchSpace} {examples : List Example} {poolLimit : Nat}
  {pool : List Candidate} {counters : Counters}

/-- Below the largest word the counted size of a round is within a limit exactly when the grown
pool is. -/
theorem roundSize_le_iff (small : poolLimit < maxCount) :
    space.roundSize pool ≤ poolLimit ↔ (pool ++ space.additions pool).length ≤ poolLimit := by
  rw [roundSize, List.length_append]
  omega

/-- A level that would exceed the limit is refused, and the counters stay as they are. -/
theorem growLevel_eq_of_lt (declared : space.grammar.DeclaresHeads pool)
    (small : poolLimit < maxCount) (large : poolLimit < (pool ++ space.additions pool).length) :
    growLevel space examples poolLimit pool counters = .ok ⟨none, counters⟩ := by
  have refused : ¬space.roundSize pool ≤ poolLimit := by
    rw [roundSize_le_iff small]
    omega
  rw [growLevel_eq_of_declares declared, if_neg refused]

/-- Any other level returns what reduction leaves of the grown pool, once the level, the additions
and the survivors are counted. -/
theorem growLevel_eq_ok_iff_of_le {report : Report (List Candidate)}
    (declared : space.grammar.DeclaresHeads pool) (small : poolLimit < maxCount)
    (fits : (pool ++ space.additions pool).length ≤ poolLimit) :
    growLevel space examples poolLimit pool counters = .ok report ↔
      ∃ survivors, reduce (pool ++ space.additions pool) examples = .ok survivors ∧
        (counters.levels + 1 ≤ maxCount ∧
          counters.grown + (space.additions pool).length ≤ maxCount ∧
          counters.kept + survivors.length ≤ maxCount) ∧
        report = ⟨some survivors, counters.afterLevel (space.additions pool).length
          (pool ++ space.additions pool).length survivors.length⟩ := by
  have within : space.roundSize pool ≤ poolLimit := (roundSize_le_iff small).mpr fits
  rw [List.length_append] at fits
  have growth : min (space.additions pool).length maxCount = (space.additions pool).length := by
    omega
  have size : space.roundSize pool = (pool ++ space.additions pool).length := by
    rw [roundSize, List.length_append]
    omega
  rw [growLevel_eq_of_declares declared, if_pos within, growth, size]
  simp only [bind_eq_ok_iff, Counters.recordLevel_eq_ok_iff, pure_eq_ok, Except.ok.injEq]
  constructor
  · rintro ⟨survivors, reduced, _, ⟨room, rfl⟩, rfl⟩
    exact ⟨survivors, reduced, room, rfl⟩
  · rintro ⟨survivors, reduced, room, rfl⟩
    exact ⟨survivors, reduced, _, ⟨room, rfl⟩, rfl⟩

/-- The pool limit is decided exactly, and a level that it refuses leaves no trace. In a pool
whose members that are variables are declared, whatever else they are, the count made ahead of
growth is the number of candidates that growth adds, cut off at the largest word. So against a
limit below that word a level is refused exactly when the grown pool is longer than the limit, and
then no counter changes. Otherwise the level returns what reduction leaves of the grown pool, and
counts one level, the additions and the survivors, and the size of the grown pool as a candidate
for the largest; it returns nothing else, and fails only where reduction does or where a sum
leaves its word. -/
theorem growLevel_decides_limit (space : SearchSpace) (pool : List Candidate)
    (declared : space.grammar.DeclaresHeads pool) :
    ∃ added, space.grow pool = .ok (pool ++ added) ∧
      space.growthSize pool = .ok (min added.length maxCount) ∧
      ∀ (examples : List Example) (poolLimit : Nat) (counters : Counters), poolLimit < maxCount →
        ((∃ later, growLevel space examples poolLimit pool counters = .ok ⟨none, later⟩) ↔
          poolLimit < (pool ++ added).length) ∧
        (poolLimit < (pool ++ added).length →
          growLevel space examples poolLimit pool counters = .ok ⟨none, counters⟩) ∧
        ∀ survivors later,
          growLevel space examples poolLimit pool counters = .ok ⟨some survivors, later⟩ ↔
            (pool ++ added).length ≤ poolLimit ∧
            reduce (pool ++ added) examples = .ok survivors ∧
            later = { counters with
              levels := counters.levels + 1
              grown := counters.grown + added.length
              kept := counters.kept + survivors.length
              largest := max counters.largest (pool ++ added).length } ∧
            later.levels ≤ maxCount ∧ later.grown ≤ maxCount ∧ later.kept ≤ maxCount := by
  refine ⟨space.additions pool, grow_eq declared, growthSize_eq declared, ?_⟩
  intro examples poolLimit counters small
  by_cases large : poolLimit < (pool ++ space.additions pool).length
  · have refused : growLevel space examples poolLimit pool counters = .ok ⟨none, counters⟩ :=
      growLevel_eq_of_lt declared small large
    refine ⟨⟨fun _ => large, fun _ => ⟨counters, refused⟩⟩, fun _ => refused, ?_⟩
    intro survivors later
    rw [refused]
    constructor
    · nofun
    · rintro ⟨fits, _⟩
      omega
  · have fits : (pool ++ space.additions pool).length ≤ poolLimit := Nat.le_of_not_lt large
    refine ⟨⟨?_, fun more => absurd more large⟩, fun more => absurd more large, ?_⟩
    · rintro ⟨later, returned⟩
      obtain ⟨_, _, _, same⟩ := (growLevel_eq_ok_iff_of_le declared small fits).mp returned
      cases same
    · intro survivors later
      rw [growLevel_eq_ok_iff_of_le declared small fits]
      constructor
      · rintro ⟨_, reduced, ⟨levels, grown, kept⟩, same⟩
        cases same
        exact ⟨fits, reduced, rfl, levels, grown, kept⟩
      · rintro ⟨_, reduced, rfl, levels, grown, kept⟩
        exact ⟨survivors, reduced, ⟨levels, grown, kept⟩, rfl⟩

/-- Sums are tried twice, and conditionals find no condition in a pool of integers. -/
def repeatingSpace : SearchSpace := ⟨⟨["x"], []⟩, .exhaustive, [.plus, .ite, .plus]⟩

/-- A variable, and a sum that adds false to it. -/
def illTypedPool : List Candidate :=
  [.leaf (.var "x"), .node .plus [.leaf (.var "x"), .leaf .falsity]]

/-- The limit is decided for the variable and the ill-typed sum. -/
theorem growLevel_decides_illTypedPool :
    repeatingSpace.grammar.DeclaresHeads illTypedPool ∧
    ∃ added, repeatingSpace.grow illTypedPool = .ok (illTypedPool ++ added) ∧
      repeatingSpace.growthSize illTypedPool = .ok (min added.length maxCount) ∧
      ∀ (examples : List Example) (poolLimit : Nat) (counters : Counters), poolLimit < maxCount →
        ((∃ later, growLevel repeatingSpace examples poolLimit illTypedPool counters =
            .ok ⟨none, later⟩) ↔ poolLimit < (illTypedPool ++ added).length) ∧
        (poolLimit < (illTypedPool ++ added).length →
          growLevel repeatingSpace examples poolLimit illTypedPool counters =
            .ok ⟨none, counters⟩) ∧
        ∀ survivors later,
          growLevel repeatingSpace examples poolLimit illTypedPool counters =
              .ok ⟨some survivors, later⟩ ↔
            (illTypedPool ++ added).length ≤ poolLimit ∧
            reduce (illTypedPool ++ added) examples = .ok survivors ∧
            later = { counters with
              levels := counters.levels + 1
              grown := counters.grown + added.length
              kept := counters.kept + survivors.length
              largest := max counters.largest (illTypedPool ++ added).length } ∧
            later.levels ≤ maxCount ∧ later.grown ≤ maxCount ∧ later.kept ≤ maxCount := by
  have declared : repeatingSpace.grammar.DeclaresHeads illTypedPool := by
    intro name inside
    simpa [illTypedPool, repeatingSpace] using inside
  exact ⟨declared, growLevel_decides_limit repeatingSpace illTypedPool declared⟩

end SearchSpace

end ProgramSynthesis
