import ProgramSynthesis.Proofs.Accounts
import ProgramSynthesis.Proofs.LargerBounds

/-!
# Stable pools

A level appends to its pool and then reduces all of it again, the old members included. Since a
reduction keeps first occurrences, it decides about the old members without looking at the new ones,
and a pool that is reduced already comes out of a level as it was, with the new survivors behind it.
`SearchSpace.Trace` lists the pools that a search checks, in the order in which it grows them. Each
of them is a prefix of every later one, so whatever a search finds stands behind all that it has
checked at the levels before.
-/

namespace ProgramSynthesis

/-- A search for a number of rounds from a pool, with the pools that it checks, in order. -/
inductive SearchSpace.Trace (space : SearchSpace) (examples : List Example) (poolLimit : Nat) :
    Nat → List Candidate → Counters → List (List Candidate) → Report Candidate → Prop where
  /-- No round is left. -/
  | exhausted {pool counters} : Trace space examples poolLimit 0 pool counters [] ⟨none, counters⟩
  /-- The next round would exceed the pool limit. -/
  | refused {rounds pool counters later}
    (grown : growLevel space examples poolLimit pool counters = .ok ⟨none, later⟩) :
    Trace space examples poolLimit (rounds + 1) pool counters [] ⟨none, later⟩
  /-- The next pool holds a correct candidate. -/
  | found {rounds pool counters next leveled candidate later}
    (grown : growLevel space examples poolLimit pool counters = .ok ⟨some next, leveled⟩)
    (checked : firstCorrect examples next leveled = .ok ⟨some candidate, later⟩) :
    Trace space examples poolLimit (rounds + 1) pool counters [next] ⟨some candidate, later⟩
  /-- The next pool holds no correct candidate, and the search goes on from it. -/
  | further {rounds pool counters next leveled later pools report}
    (grown : growLevel space examples poolLimit pool counters = .ok ⟨some next, leveled⟩)
    (checked : firstCorrect examples next leveled = .ok ⟨none, later⟩)
    (rest : Trace space examples poolLimit rounds next later pools report) :
    Trace space examples poolLimit (rounds + 1) pool counters (next :: pools) report

variable {examples : List Example} {pool more kept next survivors : List Candidate}
  {counters later : Counters}

/-- A pass that ends has evaluated every member. -/
theorem evaluates_of_reduceFrom {seen : Std.HashSet (List Value)}
    (reduced : reduceFrom examples seen kept pool = .ok survivors) :
    ∀ candidate ∈ pool, ∃ vector, candidate.outputs examples = .ok vector := by
  induction pool generalizing seen kept with
  | nil => exact List.forall_mem_nil _
  | cons candidate pool ih =>
    obtain ⟨vector, returned, reduced⟩ := bind_eq_ok_iff.mp reduced
    refine List.forall_mem_cons.mpr ⟨⟨vector, returned⟩, ?_⟩
    split at reduced
    · exact ih reduced
    · exact ih reduced

/-- What a reduction returns are the first occurrences of the behaviours of the pool. -/
theorem eq_firsts_of_reduce (reduced : reduce pool examples = .ok survivors) :
    survivors = firsts (·.behaviour examples) [] pool := by
  have known := reduce_eq (evaluates_of_reduceFrom reduced)
  rw [reduced] at known
  exact Except.ok.inj known

/-- A reduction of a pool with more behind it starts with the reduction of the pool. -/
theorem exists_prefix_of_reduce_append (reduced : reduce (pool ++ more) examples = .ok survivors) :
    ∃ kept, reduce pool examples = .ok kept ∧ kept <+: survivors := by
  have evaluates := evaluates_of_reduceFrom reduced
  have alone : reduce pool examples = .ok (firsts (·.behaviour examples) [] pool) :=
    reduce_eq fun candidate inside => evaluates candidate (List.mem_append_left more inside)
  refine ⟨_, alone, ?_⟩
  rw [eq_firsts_of_reduce reduced, firsts_append]
  exact List.prefix_append _ _

/-- What a reduction returns is reduced already. -/
theorem reduce_of_reduce (reduced : reduce pool examples = .ok survivors) :
    reduce survivors examples = .ok survivors := by
  have same : survivors = firsts (·.behaviour examples) [] pool := eq_firsts_of_reduce reduced
  have evaluates := evaluates_of_reduceFrom reduced
  have within : survivors ⊆ pool := same ▸ (firsts_sublist pool).subset
  rw [reduce_eq fun candidate inside => evaluates candidate (within inside), same, firsts_firsts]

/-- Only checks are counted while a pool is checked. -/
theorem levels_of_firstCorrect {report : Report Candidate}
    (checked : firstCorrect examples pool counters = .ok report) :
    report.counters.levels = counters.levels := by
  rcases firstCorrect_cases checked with ⟨rfl, _⟩ | ⟨_, _, _, _, rfl, _⟩
  · rfl
  · rfl

namespace SearchSpace

variable {space : SearchSpace} {poolLimit rounds : Nat} {pools : List (List Candidate)}
  {report : Report Candidate}

/-- A level that is performed reduces its pool with more behind it, and is counted. -/
theorem exists_reduce_of_growLevel
    (grown : growLevel space examples poolLimit pool counters = .ok ⟨some next, later⟩) :
    (∃ more, reduce (pool ++ more) examples = .ok next) ∧ later.levels = counters.levels + 1 := by
  obtain ⟨_, candidates, _, _, built, reduced, counted⟩ := growLevel_eq_some_iff.mp grown
  obtain ⟨additions, _, appended⟩ := bind_eq_ok_iff.mp built
  obtain ⟨_, rfl⟩ := Counters.recordLevel_eq_ok_iff.mp counted
  cases appended
  exact ⟨⟨additions.flatten, reduced⟩, rfl⟩

/-- The pool of a level starts with the reduction of the pool before it. -/
theorem exists_prefix_of_growLevel
    (grown : growLevel space examples poolLimit pool counters = .ok ⟨some next, later⟩) :
    ∃ kept, reduce pool examples = .ok kept ∧ kept <+: next := by
  obtain ⟨⟨more, reduced⟩, _⟩ := exists_reduce_of_growLevel grown
  exact exists_prefix_of_reduce_append reduced

/-- The pool of a level is reduced already. -/
theorem reduce_of_growLevel
    (grown : growLevel space examples poolLimit pool counters = .ok ⟨some next, later⟩) :
    reduce next examples = .ok next := by
  obtain ⟨⟨more, reduced⟩, _⟩ := exists_reduce_of_growLevel grown
  exact reduce_of_reduce reduced

/-- Every search that returns has a trace. -/
theorem exists_trace_of_searchLevels
    (searched : searchLevels space examples poolLimit rounds pool counters = .ok report) :
    ∃ pools, space.Trace examples poolLimit rounds pool counters pools report := by
  induction rounds generalizing pool counters with
  | zero =>
    cases searched
    exact ⟨[], .exhausted⟩
  | succ rounds ih =>
    obtain ⟨⟨result, leveled⟩, grown, searched⟩ := bind_eq_ok_iff.mp searched
    cases result with
    | none =>
      cases searched
      exact ⟨[], .refused grown⟩
    | some next =>
      obtain ⟨⟨answer, later⟩, checked, searched⟩ := bind_eq_ok_iff.mp searched
      cases answer with
      | some candidate =>
        cases searched
        exact ⟨[next], .found grown checked⟩
      | none =>
        obtain ⟨pools, rest⟩ := ih searched
        exact ⟨next :: pools, .further grown checked rest⟩

namespace Trace

/-- A search counts one level for each pool. -/
theorem levels_eq (trace : space.Trace examples poolLimit rounds pool counters pools report) :
    report.counters.levels = counters.levels + pools.length := by
  induction trace with
  | exhausted => rfl
  | refused grown => rw [eq_of_growLevel_none grown, List.length_nil, Nat.add_zero]
  | found grown checked =>
    have one := (exists_reduce_of_growLevel grown).2
    exact (levels_of_firstCorrect checked).trans one
  | @further _ _ counters _ leveled later _ _ grown checked _ ih =>
    have one : leveled.levels = counters.levels + 1 := (exists_reduce_of_growLevel grown).2
    have same : later.levels = leveled.levels := levels_of_firstCorrect checked
    rw [ih, List.length_cons]
    omega

/-- Every pool of a search starts with the reduction of the pool it began with, and with every
pool before it. The pool of a level is its own reduction, so it is what the later pools start
with. -/
theorem pairwise_prefix
    (trace : space.Trace examples poolLimit rounds pool counters pools report) :
    (∀ next ∈ pools, ∃ kept, reduce pool examples = .ok kept ∧ kept <+: next) ∧
      pools.Pairwise (· <+: ·) := by
  induction trace with
  | exhausted => exact ⟨List.forall_mem_nil _, .nil⟩
  | refused => exact ⟨List.forall_mem_nil _, .nil⟩
  | found grown =>
    exact ⟨List.forall_mem_singleton.mpr (exists_prefix_of_growLevel grown),
      List.pairwise_singleton _ _⟩
  | @further _ pool _ next _ _ pools _ grown _ _ ih =>
    obtain ⟨kept, reduced, first⟩ := exists_prefix_of_growLevel grown
    have behind : ∀ later ∈ pools, next <+: later := by
      intro later inside
      obtain ⟨again, same, starts⟩ := ih.1 later inside
      rw [reduce_of_growLevel grown] at same
      cases same
      exact starts
    refine ⟨?_, List.pairwise_cons.mpr ⟨behind, ih.2⟩⟩
    intro later inside
    refine ⟨kept, reduced, ?_⟩
    rcases List.mem_cons.mp inside with rfl | inside
    · exact first
    · exact first.trans (behind later inside)

/-- What a search finds is the first correct candidate of its last pool, and no pool before that
holds a correct one. -/
theorem exists_last {found : Candidate}
    (trace : space.Trace examples poolLimit rounds pool counters pools report)
    (answer : report.result = some found) :
    ∃ earlier before after, pools = earlier ++ [before ++ found :: after] ∧
      (∀ checked ∈ earlier, ∀ candidate ∈ checked, candidate.isCorrect examples = .ok false) ∧
      (∀ candidate ∈ before, candidate.isCorrect examples = .ok false) ∧
      found.isCorrect examples = .ok true := by
  induction trace with
  | exhausted => cases answer
  | refused => cases answer
  | found _ checked =>
    rcases firstCorrect_cases checked with
      ⟨same, _⟩ | ⟨before, first, after, rfl, same, wrong, correct⟩
    · cases same
    · cases same
      cases answer
      exact ⟨[], before, after, rfl, List.forall_mem_nil _, wrong, correct⟩
  | @further _ _ _ next _ _ pools _ _ checked _ ih =>
    obtain ⟨earlier, before, after, place, missed, wrong, correct⟩ := ih answer
    rcases firstCorrect_cases checked with ⟨_, none⟩ | ⟨_, _, _, _, same, _⟩
    · exact ⟨next :: earlier, before, after, congrArg (next :: ·) place,
        List.forall_mem_cons.mpr ⟨none, missed⟩, wrong, correct⟩
    · cases same

end Trace

/-- A prefix that lacks a member ends before it. -/
theorem prefix_of_notMem {before after part : List Candidate} {found : Candidate}
    (starts : part <+: before ++ found :: after) (absent : found ∉ part) : part <+: before := by
  have split : before ++ found :: after = (before ++ [found]) ++ after := by simp
  rcases Nat.lt_or_ge before.length part.length with longer | shorter
  · have reaches : before ++ [found] <+: part := by
      apply List.prefix_of_prefix_length_le (split ▸ List.prefix_append _ after) starts
      rw [List.length_append, List.length_singleton]
      omega
    have inside : found ∈ part := reaches.subset (by simp)
    exact absurd inside absent
  · exact List.prefix_of_prefix_length_le starts (List.prefix_append before _) shorter

/-- Pools are prefix-stable. Whatever pool a level starts from, the pool it returns starts with
the reduction of that pool. So a search grows one pool for each level that it counts, and each of
these pools is a prefix of every later one. What it finds stands in its last pool, behind all that
the pools before held, and behind nothing that is correct. -/
theorem pools_are_prefix_stable (space : SearchSpace) (examples : List Example) (poolLimit : Nat) :
    (∀ pool counters next later,
      growLevel space examples poolLimit pool counters = .ok ⟨some next, later⟩ →
      ∃ kept, reduce pool examples = .ok kept ∧ kept <+: next) ∧
    ∀ maxLevel report, enumerativeSearch space examples maxLevel poolLimit = .ok report →
      ∃ pools, space.Trace examples poolLimit maxLevel space.grammar.terminals .zero pools report ∧
        pools.length = report.counters.levels ∧
        pools.Pairwise (· <+: ·) ∧
        ∀ found, report.result = some found →
          ∃ earlier before after, pools = earlier ++ [before ++ found :: after] ∧
            (∀ pool ∈ earlier, pool <+: before) ∧ found ∉ before ∧
            ∀ candidate ∈ before, candidate.isCorrect examples = .ok false := by
  refine ⟨fun pool counters next later grown => exists_prefix_of_growLevel grown, ?_⟩
  intro maxLevel report searched
  obtain ⟨pools, trace⟩ := exists_trace_of_searchLevels searched
  have levels : report.counters.levels = 0 + pools.length := trace.levels_eq
  have nested : pools.Pairwise (· <+: ·) := trace.pairwise_prefix.2
  refine ⟨pools, trace, by omega, nested, ?_⟩
  intro found answer
  obtain ⟨earlier, before, after, rfl, missed, wrong, correct⟩ := trace.exists_last answer
  have apart : ∀ part : List Candidate,
      (∀ candidate ∈ part, candidate.isCorrect examples = .ok false) → found ∉ part := by
    intro part none inside
    have again := none found inside
    rw [correct] at again
    cases again
  refine ⟨earlier, before, after, rfl, ?_, apart before wrong, wrong⟩
  intro pool inside
  have starts : pool <+: before ++ found :: after :=
    (List.pairwise_append.mp nested).2.2 pool inside _ List.mem_cons_self
  exact prefix_of_notMem starts (apart pool (missed pool inside))

/-- The terminals, each listed twice. -/
def doubledTerminals : List Candidate :=
  sumSpace.grammar.terminals ++ sumSpace.grammar.terminals

/-- A level from the doubled terminals starts with the terminals. The search for the variable plus
two grows two pools, the first of them a prefix of what stands before the sum in the second. -/
theorem pools_towards_plusTwo :
    (∃ next later, growLevel sumSpace plusTwo 100 doubledTerminals .zero = .ok ⟨some next, later⟩ ∧
      ∃ kept, reduce doubledTerminals plusTwo = .ok kept ∧ kept <+: next) ∧
    ∃ pools, sumSpace.Trace plusTwo 100 3 sumSpace.grammar.terminals .zero pools
        ⟨some twoMore, twoLevels⟩ ∧
      pools.length = 2 ∧ pools.Pairwise (· <+: ·) ∧
      ∃ earlier before after, pools = earlier ++ [before ++ twoMore :: after] ∧
        (∀ pool ∈ earlier, pool <+: before) ∧ twoMore ∉ before ∧
        ∀ candidate ∈ before, candidate.isCorrect plusTwo = .ok false := by
  obtain ⟨levels, searches⟩ := pools_are_prefix_stable sumSpace plusTwo 100
  constructor
  · have terminals := Grammar.typedPool_terminals sumSpace.grammar
    have typed : sumSpace.grammar.TypedPool doubledTerminals := fun candidate inside =>
      (List.mem_append.mp inside).elim (terminals candidate) (terminals candidate)
    have grown : growLevel sumSpace plusTwo 100 doubledTerminals .zero =
        .ok ⟨some (sumSpace.advance plusTwo doubledTerminals), ⟨1, 20, 7, 0, 26, 0⟩⟩ := by
      rw [growLevel_eq typed (by decide)]
      decide +kernel
    exact ⟨_, _, grown, levels _ _ _ _ grown⟩
  · have searched : enumerativeSearch sumSpace plusTwo 3 100 = .ok ⟨some twoMore, twoLevels⟩ :=
      enumerativeSearch_plusTwo
    obtain ⟨pools, trace, counted, nested, answered⟩ := searches 3 _ searched
    exact ⟨pools, trace, counted, nested, answered twoMore rfl⟩

end SearchSpace

end ProgramSynthesis
