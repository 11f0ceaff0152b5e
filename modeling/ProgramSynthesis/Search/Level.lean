import ProgramSynthesis.Growth.Basic
import ProgramSynthesis.Reduction
import ProgramSynthesis.Search.Counters

/-!
# Levels of a search

A level is one round of growth followed by reduction. The size of the round is counted first:
when it would exceed the pool limit the round is not performed, and nothing is counted.
-/

namespace ProgramSynthesis

/-- Grow a pool by one level, unless that would exceed the pool limit. -/
def growLevel (space : SearchSpace) (examples : List Example) (poolLimit : Nat)
    (pool : List Candidate) (counters : Counters) : Except Fault (Report (List Candidate)) := do
  let growth ← space.growthSize pool
  let size := min (pool.length + growth) maxCount
  if poolLimit < size then
    return ⟨none, counters⟩
  let survivors ← reduce (← space.grow pool) examples
  return ⟨some survivors, ← counters.recordLevel growth size survivors.length⟩

/-- Grow a pool by a number of levels, unless one of them would exceed the pool limit. -/
def growLevels (space : SearchSpace) (examples : List Example) (poolLimit : Nat) :
    Nat → List Candidate → Counters → Except Fault (Report (List Candidate))
  | 0, pool, counters => .ok ⟨some pool, counters⟩
  | rounds + 1, pool, counters => do
    match ← growLevel space examples poolLimit pool counters with
    | ⟨none, counters⟩ => return ⟨none, counters⟩
    | ⟨some pool, counters⟩ => growLevels space examples poolLimit rounds pool counters

end ProgramSynthesis
