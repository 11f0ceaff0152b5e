import Mathlib.Data.List.Sort
import ProgramSynthesis.Proofs.Reduction

/-!
# What a reduction keeps

A reduction keeps of every output vector the member of the pool that shows it first, in pool
order, and nothing else: `FirstOfEach` says so by positions, without the pass that computes it.
What follows a pool is therefore reduced as it would be alone, less the members whose vector the
pool shows already, and reducing a part of a pool beforehand changes nothing.
-/

namespace ProgramSynthesis

variable {examples : List Example} {pool kept others : List Candidate}

/-- Whether a list holds, in pool order, the first member of each output vector of a pool. -/
structure FirstOfEach (examples : List Example) (pool kept : List Candidate) : Prop where
  /-- A candidate is kept when it stands somewhere with no member of its vector before it. -/
  mem_iff : ∀ candidate, candidate ∈ kept ↔ ∃ before after, pool = before ++ candidate :: after ∧
    ∀ earlier ∈ before, earlier.outputs examples ≠ candidate.outputs examples
  /-- What is kept stands in pool order. -/
  order : kept.Pairwise fun left right => pool.idxOf left < pool.idxOf right

/-- A pool has one list of first members. -/
theorem FirstOfEach.eq (first : FirstOfEach examples pool kept)
    (other : FirstOfEach examples pool others) : kept = others := by
  have irreflexive : Std.Irrefl fun left right : Candidate =>
      pool.idxOf left < pool.idxOf right := ⟨fun _ => Nat.lt_irrefl _⟩
  have antisymmetric : Std.Antisymm fun left right : Candidate =>
      pool.idxOf left < pool.idxOf right :=
    ⟨fun _ _ before after => absurd after (Nat.lt_asymm before)⟩
  apply first.order.eq_of_mem_iff other.order
  intro candidate
  rw [first.mem_iff, other.mem_iff]

/-- The first occurrences by output vector are the first members of each vector. -/
theorem firstOfEach_firsts (examples : List Example) (pool : List Candidate) :
    FirstOfEach examples pool (firsts (·.outputs examples) [] pool) where
  mem_iff candidate := by
    rw [mem_firsts_iff, and_iff_right List.not_mem_nil]
    simp only [List.mem_map, not_exists, not_and, ne_eq]
  order := pairwise_idxOf_firsts

/-- A pool whose members evaluate is reduced to the first occurrences by output vector. -/
theorem reduce_eq_firsts_outputs
    (evaluates : ∀ candidate ∈ pool, ∃ vector, candidate.outputs examples = .ok vector) :
    reduce pool examples = .ok (firsts (·.outputs examples) [] pool) := by
  rw [reduce_eq evaluates]
  congr 1
  apply firsts_congr
  intro left inside right _
  refine ⟨Candidate.outputs_congr, fun same => ?_⟩
  obtain ⟨vector, returned⟩ := evaluates left inside
  exact Candidate.behaviour_eq_of_outputs returned (same ▸ returned)

/-- A reduction returns the first members of each output vector, and no other list. -/
theorem reduce_eq_ok_iff_firstOfEach
    (evaluates : ∀ candidate ∈ pool, ∃ vector, candidate.outputs examples = .ok vector) :
    reduce pool examples = .ok kept ↔ FirstOfEach examples pool kept := by
  rw [reduce_eq_firsts_outputs evaluates, Except.ok.injEq]
  constructor
  · rintro rfl
    exact firstOfEach_firsts examples pool
  · intro first
    exact (firstOfEach_firsts examples pool).eq first

/-- Reduction keeps exactly the first of each class. When all members of two pools evaluate, their
join is reduced to what is kept of the first pool, followed by what is kept of the second less the
candidates whose output vector some member of the first pool has. The survivors are the first
members of each output vector: no two have one vector, each member of the join has a survivor of
its vector at or before its position, and they stand in its order. Reducing the survivors again,
or the first pool beforehand, changes nothing. -/
theorem reduction_keeps_first_of_each (examples : List Example) (pool more : List Candidate)
    (evaluates : ∀ candidate ∈ pool ++ more, ∃ vector, candidate.outputs examples = .ok vector) :
    ∃ kept added all, reduce pool examples = .ok kept ∧ reduce more examples = .ok added ∧
      reduce (pool ++ more) examples = .ok all ∧
      all = kept ++ added.filter (fun candidate : Candidate =>
        candidate.outputs examples ∉ pool.map (·.outputs examples)) ∧
      FirstOfEach examples (pool ++ more) all ∧
      (all.map (·.outputs examples)).Nodup ∧
      (∀ (index : Nat) (candidate : Candidate), (pool ++ more)[index]? = some candidate →
        ∃ place ≤ index, ∃ survivor ∈ all, (pool ++ more)[place]? = some survivor ∧
          survivor.outputs examples = candidate.outputs examples) ∧
      all.Sublist (pool ++ more) ∧
      reduce all examples = .ok all ∧ reduce (kept ++ more) examples = .ok all := by
  have within : ∀ part : List Candidate, part ⊆ pool ++ more →
      reduce part examples = .ok (firsts (·.outputs examples) [] part) := fun part included =>
    reduce_eq_firsts_outputs fun candidate inside => evaluates candidate (included inside)
  have survivors : firsts (·.outputs examples) [] (pool ++ more) ⊆ pool ++ more :=
    (firsts_sublist (pool ++ more)).subset
  have shortened : firsts (·.outputs examples) [] pool ++ more ⊆ pool ++ more :=
    ((firsts_sublist pool).append_right more).subset
  have first :
      FirstOfEach examples (pool ++ more) (firsts (·.outputs examples) [] (pool ++ more)) :=
    (reduce_eq_ok_iff_firstOfEach evaluates).mp (within _ (List.Subset.refl _))
  have joined : firsts (·.outputs examples) [] (pool ++ more) =
      firsts (·.outputs examples) [] pool ++
        (firsts (·.outputs examples) [] more).filter (fun candidate : Candidate =>
          candidate.outputs examples ∉ pool.map (·.outputs examples)) := by
    rw [firsts_append, filter_firsts]
  have same : SameFirsts (·.outputs examples) (firsts (·.outputs examples) [] pool ++ more)
      (pool ++ more) := (SameFirsts.of_firsts _ pool).append rfl
  have again : reduce (firsts (·.outputs examples) [] (pool ++ more)) examples =
      .ok (firsts (·.outputs examples) [] (pool ++ more)) := by
    rw [within _ survivors, firsts_firsts]
  have beforehand : reduce (firsts (·.outputs examples) [] pool ++ more) examples =
      .ok (firsts (·.outputs examples) [] (pool ++ more)) := by
    rw [within _ shortened, same]
  exact ⟨_, _, _, within pool (List.subset_append_left pool more),
    within more (List.subset_append_right pool more), within _ (List.Subset.refl _), joined,
    first, nodup_map_firsts,
    fun index candidate found => exists_mem_firsts_of_getElem? found List.not_mem_nil,
    firsts_sublist _, again, beforehand⟩

/-- Two inputs of two numbers. -/
def numberPairs : List Example :=
  [⟨.ofList [("x", 5), ("y", 10)], .int 5⟩, ⟨.ofList [("x", 8), ("y", 3)], .int 3⟩]

/-- A variable, a sum that is no different, and a truth value. -/
def repeatingPool : List Candidate :=
  [.leaf (.var "x"), .node .plus [.leaf (.var "x"), .leaf (.number 0)], .leaf .falsity]

/-- A conjunction and a sum that the pool above makes superfluous, around two comparisons that
agree with each other and a new variable. -/
def laterPool : List Candidate :=
  [.node .lt [.leaf (.var "y"), .leaf (.var "x")],
    .node .and [.leaf .falsity, .leaf .falsity],
    .leaf (.var "y"),
    .node .lt [.leaf (.var "y"), .leaf (.number 5)],
    .node .plus [.leaf (.number 0), .leaf (.var "x")]]

/-- The superfluous members and the second comparison are dropped, and the order is kept. -/
theorem reduction_keeps_first_of_numberPairs :
    (∀ candidate ∈ repeatingPool ++ laterPool,
      ∃ vector, candidate.outputs numberPairs = .ok vector) ∧
    ∃ kept added all, reduce repeatingPool numberPairs = .ok kept ∧
      reduce laterPool numberPairs = .ok added ∧
      reduce (repeatingPool ++ laterPool) numberPairs = .ok all ∧
      all = kept ++ added.filter (fun candidate : Candidate =>
        candidate.outputs numberPairs ∉ repeatingPool.map (·.outputs numberPairs)) ∧
      FirstOfEach numberPairs (repeatingPool ++ laterPool) all ∧
      (all.map (·.outputs numberPairs)).Nodup ∧
      (∀ (index : Nat) (candidate : Candidate),
        (repeatingPool ++ laterPool)[index]? = some candidate →
        ∃ place ≤ index, ∃ survivor ∈ all,
          (repeatingPool ++ laterPool)[place]? = some survivor ∧
          survivor.outputs numberPairs = candidate.outputs numberPairs) ∧
      all.Sublist (repeatingPool ++ laterPool) ∧
      reduce all numberPairs = .ok all ∧ reduce (kept ++ laterPool) numberPairs = .ok all := by
  have returns : ∀ candidate ∈ repeatingPool ++ laterPool,
      (candidate.outputs numberPairs).toOption.isSome = true := by decide +kernel
  have evaluates : ∀ candidate ∈ repeatingPool ++ laterPool,
      ∃ vector, candidate.outputs numberPairs = .ok vector := by
    intro candidate inside
    cases returned : candidate.outputs numberPairs with
    | ok vector => exact ⟨vector, rfl⟩
    | error fault =>
      have some := returns candidate inside
      rw [returned] at some
      cases some
  exact ⟨evaluates, reduction_keeps_first_of_each numberPairs repeatingPool laterPool evaluates⟩

end ProgramSynthesis
