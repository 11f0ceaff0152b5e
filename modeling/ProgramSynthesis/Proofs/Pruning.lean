import ProgramSynthesis.Proofs.Levels

/-!
# Reduction never changes what is found

Growth without reduction is compared with the levels of a search. After any number of levels
the reduced pool is the reduction of the pool that plain growth reaches, and a search returns
the candidate that checking the plain pools in order returns first.
-/

namespace ProgramSynthesis

namespace SearchSpace

variable {space : SearchSpace} {examples : List Example} {poolLimit : Nat}
  {pool plain : List Candidate}

/-- Rounds of growth, with no reduction in between. -/
def growTimes (space : SearchSpace) : Nat → List Candidate → Except Fault (List Candidate)
  | 0, pool => .ok pool
  | rounds + 1, pool => do space.growTimes rounds (← space.grow pool)

/-- The first correct candidate when plain growth is checked level by level, in pool order. -/
def plainSearch (space : SearchSpace) (examples : List Example) :
    Nat → List Candidate → Except Fault (Option Candidate)
  | 0, _ => .ok none
  | rounds + 1, pool => do
    let grown ← space.grow pool
    match ← grown.findM? (·.isCorrect examples) with
    | some found => return some found
    | none => space.plainSearch examples rounds grown

/-- One round of growth followed by reduction. -/
def nextLevel (space : SearchSpace) (examples : List Example) (pool : List Candidate) :
    Except Fault (List Candidate) := do
  reduce (← space.grow pool) examples

/-- No round that is performed exceeds the limit: the first one fits, and unless the search
stops at its level, neither does a later one. -/
def RoundsFit (space : SearchSpace) (examples : List Example) (poolLimit : Nat)
    (stops : List Candidate → Prop) : Nat → List Candidate → Prop
  | 0, _ => True
  | rounds + 1, pool => space.Fits poolLimit pool ∧
      ∀ next, space.nextLevel examples pool = .ok next →
        stops next ∨ space.RoundsFit examples poolLimit stops rounds next

/-- Whether some member of a pool is correct on every example. -/
def Solved (examples : List Example) (pool : List Candidate) : Prop :=
  ∃ candidate ∈ pool, candidate.isCorrect examples = .ok true

/-- What plain growth makes of a pool. -/
def expand (space : SearchSpace) (pool : List Candidate) : List Candidate :=
  pool ++ space.additions pool

/-- Plain growth keeps a pool well typed. -/
theorem typedPool_expand (typed : space.grammar.TypedPool pool) :
    space.grammar.TypedPool (space.expand pool) := typedPool_append_additions typed

/-- Rounds of plain growth keep a pool well typed. -/
theorem typedPool_iterate_expand {rounds : Nat} (typed : space.grammar.TypedPool pool) :
    space.grammar.TypedPool (space.expand^[rounds] pool) := by
  induction rounds generalizing pool with
  | zero => exact typed
  | succ rounds ih => exact ih (typedPool_expand typed)

/-- Rounds of plain growth expand the pool as often. -/
theorem growTimes_eq {rounds : Nat} (typed : space.grammar.TypedPool pool) :
    space.growTimes rounds pool = .ok (space.expand^[rounds] pool) := by
  induction rounds generalizing pool with
  | zero => rfl
  | succ rounds ih =>
    rw [growTimes, grow_eq typed.declaresHeads, ok_bind]
    exact ih (typedPool_expand typed)

/-- The next level of a well-typed pool is the advanced pool. -/
theorem nextLevel_eq (typed : space.grammar.TypedPool pool)
    (bound : space.grammar.BoundBy examples) :
    space.nextLevel examples pool = .ok (space.advance examples pool) := by
  rw [nextLevel, grow_eq typed.declaresHeads, ok_bind,
    (typedPool_append_additions typed).reduce_eq bound]
  rfl

/-- Rounds that fit, read off the plain functions. -/
theorem roundsFit_succ_iff {stops : List Candidate → Prop} {rounds : Nat}
    (typed : space.grammar.TypedPool pool) (bound : space.grammar.BoundBy examples) :
    space.RoundsFit examples poolLimit stops (rounds + 1) pool ↔
      space.roundSize pool ≤ poolLimit ∧ (stops (space.advance examples pool) ∨
        space.RoundsFit examples poolLimit stops rounds (space.advance examples pool)) := by
  rw [RoundsFit, fits_iff typed, nextLevel_eq typed bound]
  simp

/-- A level and a round of plain growth from interchangeable pools are interchangeable. -/
theorem sameFirsts_advance_expand (same : SameFirsts (·.behaviour examples) pool plain)
    (typed : space.grammar.TypedPool pool) (plainTyped : space.grammar.TypedPool plain)
    (bound : space.grammar.BoundBy examples) (nonempty : examples ≠ []) :
    SameFirsts (·.behaviour examples) (space.advance examples pool) (space.expand plain) :=
  (SameFirsts.of_firsts _ _).trans
    (sameFirsts_append_additions same typed plainTyped bound nonempty)

/-- Levels that all fit climb to the first occurrences of plain growth. -/
theorem climb_eq_firsts (bound : space.grammar.BoundBy examples) (nonempty : examples ≠ [])
    {rounds : Nat} (same : SameFirsts (·.behaviour examples) pool plain)
    (typed : space.grammar.TypedPool pool) (plainTyped : space.grammar.TypedPool plain)
    (fit : space.RoundsFit examples poolLimit (fun _ => False) (rounds + 1) pool) :
    space.climb examples poolLimit (rounds + 1) pool =
      some (firsts (·.behaviour examples) [] (space.expand^[rounds + 1] plain)) := by
  induction rounds generalizing pool plain with
  | zero =>
    obtain ⟨fits, _⟩ := (roundsFit_succ_iff typed bound).mp fit
    rw [climb, if_pos fits, climb, advance]
    exact congrArg some (sameFirsts_append_additions same typed plainTyped bound nonempty)
  | succ rounds ih =>
    obtain ⟨fits, later⟩ := (roundsFit_succ_iff typed bound).mp fit
    rw [climb, if_pos fits, Function.iterate_succ_apply]
    exact ih (sameFirsts_advance_expand same typed plainTyped bound nonempty)
      (typedPool_advance typed) (typedPool_expand plainTyped) (later.resolve_left id)

/-- Levels that all fit climb to a pool that is interchangeable with plain growth. -/
theorem exists_climb (bound : space.grammar.BoundBy examples) (nonempty : examples ≠ [])
    {rounds : Nat} (same : SameFirsts (·.behaviour examples) pool plain)
    (typed : space.grammar.TypedPool pool) (plainTyped : space.grammar.TypedPool plain)
    (fit : space.RoundsFit examples poolLimit (fun _ => False) rounds pool) :
    ∃ top, space.climb examples poolLimit rounds pool = some top ∧
      SameFirsts (·.behaviour examples) top (space.expand^[rounds] plain) := by
  cases rounds with
  | zero => exact ⟨pool, rfl, same⟩
  | succ rounds =>
    exact ⟨_, climb_eq_firsts bound nonempty same typed plainTyped fit, .of_firsts _ _⟩

/-- Levels that are climbed all fit. -/
theorem roundsFit_of_climb (bound : space.grammar.BoundBy examples)
    {stops : List Candidate → Prop} {rounds : Nat} {top : List Candidate}
    (typed : space.grammar.TypedPool pool)
    (climbed : space.climb examples poolLimit rounds pool = some top) :
    space.RoundsFit examples poolLimit stops rounds pool := by
  induction rounds generalizing pool with
  | zero => trivial
  | succ rounds ih =>
    obtain ⟨fits, climbed⟩ := climb_succ_eq_some_iff.mp climbed
    rw [roundsFit_succ_iff typed bound]
    exact ⟨fits, .inr (ih (typedPool_advance typed) climbed)⟩

/-- The first correct member of a well-typed pool, found by checking in order. -/
theorem findM?_eq (typed : space.grammar.TypedPool pool) (bound : space.grammar.BoundBy examples) :
    pool.findM? (·.isCorrect examples) = .ok (pool.find? (·.solves examples)) := by
  induction pool with
  | nil => rfl
  | cons candidate pool ih =>
    have tail := ih fun other inside => typed other (List.mem_cons_of_mem candidate inside)
    rw [List.findM?, (typed candidate List.mem_cons_self).isCorrect bound, ok_bind,
      List.find?_cons]
    cases candidate.solves examples with
    | true => rfl
    | false => exact tail

/-- Candidates of one behaviour solve the same examples. -/
theorem solves_congr (left right : Candidate)
    (alike : left.behaviour examples = right.behaviour examples) :
    left.solves examples = right.solves examples := by
  rw [Candidate.solves, Candidate.solves, Candidate.isCorrect_congr alike]

/-- A pool in which the search finds something is solved. -/
theorem solved_iff : Solved examples pool ↔ pool.find? (·.solves examples) ≠ none := by
  simp [Solved, Candidate.solves]

/-- A level keeps the first correct member. -/
theorem find?_advance {found : Candidate} (first : pool.find? (·.solves examples) = some found) :
    (space.advance examples pool).find? (·.solves examples) = some found := by
  rw [advance, find?_firsts _ solves_congr (by simp), List.find?_append, first]
  rfl

/-- Levels keep the first correct member. -/
theorem find?_of_climb {rounds : Nat} {top : List Candidate} {found : Candidate}
    (climbed : space.climb examples poolLimit rounds pool = some top)
    (first : pool.find? (·.solves examples) = some found) :
    top.find? (·.solves examples) = some found := by
  induction rounds generalizing pool with
  | zero => exact Option.some.inj climbed ▸ first
  | succ rounds ih =>
    obtain ⟨_, climbed⟩ := climb_succ_eq_some_iff.mp climbed
    exact ih climbed (find?_advance first)

/-- A search finds the first correct member of the pool it would climb to. -/
theorem explore_eq_find?_of_climb {rounds : Nat} {top : List Candidate}
    (climbed : space.climb examples poolLimit (rounds + 1) pool = some top) :
    (space.explore examples poolLimit (rounds + 1) pool).1 = top.find? (·.solves examples) := by
  induction rounds generalizing pool with
  | zero =>
    obtain ⟨fits, climbed⟩ := climb_succ_eq_some_iff.mp climbed
    rw [explore, if_pos fits, ← Option.some.inj climbed]
    cases first : (space.advance examples pool).find? (·.solves examples) with
    | some found => rfl
    | none => rfl
  | succ rounds ih =>
    obtain ⟨fits, climbed⟩ := climb_succ_eq_some_iff.mp climbed
    rw [explore, if_pos fits]
    cases first : (space.advance examples pool).find? (·.solves examples) with
    | some found => exact (find?_of_climb climbed first).symm
    | none => exact ih climbed

/-- No two members of a climbed pool behave alike. -/
theorem nodup_of_climb {rounds : Nat} {top : List Candidate}
    (climbed : space.climb examples poolLimit (rounds + 1) pool = some top) :
    (top.map (·.behaviour examples)).Nodup := by
  induction rounds generalizing pool with
  | zero =>
    obtain ⟨_, climbed⟩ := climb_succ_eq_some_iff.mp climbed
    exact Option.some.inj climbed ▸ nodup_map_firsts
  | succ rounds ih =>
    obtain ⟨_, climbed⟩ := climb_succ_eq_some_iff.mp climbed
    exact ih climbed

/-- Exploring the levels finds what plain growth finds when checked level by level. -/
theorem plainSearch_eq (bound : space.grammar.BoundBy examples) (nonempty : examples ≠ [])
    {rounds : Nat} (same : SameFirsts (·.behaviour examples) pool plain)
    (typed : space.grammar.TypedPool pool) (plainTyped : space.grammar.TypedPool plain)
    (fit : space.RoundsFit examples poolLimit (Solved examples) rounds pool) :
    space.plainSearch examples rounds plain =
      .ok (space.explore examples poolLimit rounds pool).1 := by
  induction rounds generalizing pool plain with
  | zero => rfl
  | succ rounds ih =>
    obtain ⟨fits, later⟩ := (roundsFit_succ_iff typed bound).mp fit
    have alike := sameFirsts_advance_expand same typed plainTyped bound nonempty
    have expanded : space.grammar.TypedPool (space.expand plain) := typedPool_expand plainTyped
    have found := alike.find?_eq (·.solves examples) solves_congr
    rw [plainSearch, grow_eq plainTyped.declaresHeads, ok_bind, ← expand,
      findM?_eq expanded bound, ok_bind, ← found, explore, if_pos fits]
    cases first : (space.advance examples pool).find? (·.solves examples) with
    | some candidate => rfl
    | none =>
      have unsolved : ¬Solved examples (space.advance examples pool) :=
        fun solved => solved_iff.mp solved first
      exact ih alike (typedPool_advance typed) expanded (later.resolve_left unsolved)

/-- Reduction changes neither the pools nor the answer. On at least one example, all of which bind
the declared names, levels that all fit hold the reduction of what plain growth reaches in as many
rounds; and a search none of whose rounds exceeds the limit returns what checking the plain pools
in order returns first. Only if the rounds times the limit reach the largest machine word may a
counter overflow instead. -/
theorem pruning_preserves_pools_and_answers (space : SearchSpace) (examples : List Example)
    (poolLimit : Nat) (nonempty : examples ≠ []) (bound : space.grammar.BoundBy examples) :
    (∀ rounds, 0 < rounds →
      space.RoundsFit examples poolLimit (fun _ => False) rounds space.grammar.terminals →
      ∃ plain pool, space.growTimes rounds space.grammar.terminals = .ok plain ∧
        reduce plain examples = .ok pool ∧
        Delivers (rounds * max poolLimit 1)
          (growLevels space examples poolLimit rounds space.grammar.terminals .zero)
          fun report => report.result = some pool) ∧
    ∀ maxLevel,
      space.RoundsFit examples poolLimit (Solved examples) maxLevel space.grammar.terminals →
      ∃ answer, space.plainSearch examples maxLevel space.grammar.terminals = .ok answer ∧
        Delivers (maxLevel * max poolLimit 1)
          (enumerativeSearch space examples maxLevel poolLimit)
          fun report => report.result = answer := by
  have typed := Grammar.typedPool_terminals space.grammar
  constructor
  · intro rounds positive fit
    obtain ⟨rounds, rfl⟩ := Nat.exists_eq_add_one_of_ne_zero (Nat.ne_of_gt positive)
    have plainTyped : space.grammar.TypedPool (space.expand^[rounds + 1] space.grammar.terminals) :=
      typedPool_iterate_expand typed
    have climbed := climb_eq_firsts bound nonempty rfl typed typed fit
    refine ⟨_, _, growTimes_eq typed, plainTyped.reduce_eq bound, ?_⟩
    obtain ⟨levelRoom, workRoom⟩ := le_mul_max_one (rounds + 1) poolLimit
    exact (growLevels_delivers bound typed (Counters.atMost_zero 0 0 0) (by omega) (by omega)).imp
      fun report grown => grown.1.trans climbed
  · intro maxLevel fit
    refine ⟨_, plainSearch_eq bound nonempty rfl typed typed fit, ?_⟩
    obtain ⟨levelRoom, workRoom⟩ := le_mul_max_one maxLevel poolLimit
    exact (enumerativeSearch_delivers bound levelRoom workRoom).imp
      fun report searched => searched.1

/-- Programs over one variable and the literal one, built by sums and comparisons. -/
def sumSpace : SearchSpace := ⟨⟨["x"], [1]⟩, .restricted, [.plus, .lt]⟩

/-- The examples ask for the variable plus two, which takes two levels. -/
def plusTwo : List Example := [⟨.ofList [("x", 1)], .int 3⟩, ⟨.ofList [("x", 4)], .int 6⟩]

/-- One level from the terminals fits a limit when the size of its round does. -/
theorem roundsFit_one {stops : List Candidate → Prop} (bound : space.grammar.BoundBy examples)
    (small : space.roundSize space.grammar.terminals ≤ poolLimit) :
    space.RoundsFit examples poolLimit stops 1 space.grammar.terminals :=
  (roundsFit_succ_iff (Grammar.typedPool_terminals space.grammar) bound).mpr
    ⟨small, .inr trivial⟩

/-- Two levels from the terminals fit a limit when the sizes of both rounds do. -/
theorem roundsFit_two {stops : List Candidate → Prop} (bound : space.grammar.BoundBy examples)
    (first : space.roundSize space.grammar.terminals ≤ poolLimit)
    (second : space.roundSize (space.advance examples space.grammar.terminals) ≤ poolLimit) :
    space.RoundsFit examples poolLimit stops 2 space.grammar.terminals := by
  have typed := Grammar.typedPool_terminals space.grammar
  rw [roundsFit_succ_iff typed bound, roundsFit_succ_iff (typedPool_advance typed) bound]
  exact ⟨first, .inr ⟨second, .inr trivial⟩⟩

/-- Two levels of sums and comparisons fit a limit of a hundred candidates. -/
theorem sumSpace_roundsFit (stops : List Candidate → Prop) :
    sumSpace.RoundsFit plusTwo 100 stops 2 sumSpace.grammar.terminals :=
  roundsFit_two (by decide) (by decide +kernel) (by decide +kernel)

/-- Two levels towards the variable plus two. -/
theorem pruning_preserves_plusTwo :
    plusTwo ≠ [] ∧ sumSpace.grammar.BoundBy plusTwo ∧
    (∃ plain pool, sumSpace.growTimes 2 sumSpace.grammar.terminals = .ok plain ∧
      reduce plain plusTwo = .ok pool ∧
      Delivers (2 * max 100 1) (growLevels sumSpace plusTwo 100 2 sumSpace.grammar.terminals .zero)
        fun report => report.result = some pool) ∧
    ∃ answer, sumSpace.plainSearch plusTwo 2 sumSpace.grammar.terminals = .ok answer ∧
      Delivers (2 * max 100 1) (enumerativeSearch sumSpace plusTwo 2 100)
        fun report => report.result = answer := by
  have nonempty : plusTwo ≠ [] := by decide
  have bound : sumSpace.grammar.BoundBy plusTwo := by decide
  have preserved := pruning_preserves_pools_and_answers sumSpace plusTwo 100 nonempty bound
  exact ⟨nonempty, bound, preserved.1 2 (by decide) (sumSpace_roundsFit _),
    preserved.2 2 (sumSpace_roundsFit _)⟩

end SearchSpace

end ProgramSynthesis
