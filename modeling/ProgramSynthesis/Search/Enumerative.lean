import ProgramSynthesis.Search.Level

/-!
# Enumerative search

Grow level by level from the terminals, and after each level check the pool in order. The
first candidate that is correct on every example is the answer.
-/

namespace ProgramSynthesis

/-- The first correct candidate of a pool, counting every candidate checked. -/
def firstCorrect (examples : List Example) :
    List Candidate → Counters → Except Fault (Report Candidate)
  | [], counters => .ok ⟨none, counters⟩
  | candidate :: pool, counters => do
    let counters ← counters.recordChecks 1
    if ← candidate.isCorrect examples then
      return ⟨some candidate, counters⟩
    else
      firstCorrect examples pool counters

/-- Alternate growth and checking for a number of levels. -/
def searchLevels (space : SearchSpace) (examples : List Example) (poolLimit : Nat) :
    Nat → List Candidate → Counters → Except Fault (Report Candidate)
  | 0, _, counters => .ok ⟨none, counters⟩
  | rounds + 1, pool, counters => do
    match ← growLevel space examples poolLimit pool counters with
    | ⟨none, counters⟩ => return ⟨none, counters⟩
    | ⟨some pool, counters⟩ =>
      match ← firstCorrect examples pool counters with
      | ⟨some found, counters⟩ => return ⟨some found, counters⟩
      | ⟨none, counters⟩ => searchLevels space examples poolLimit rounds pool counters

/-- The first correct candidate within a number of levels above the terminals. -/
def enumerativeSearch (space : SearchSpace) (examples : List Example)
    (maxLevel poolLimit : Nat) : Except Fault (Report Candidate) :=
  searchLevels space examples poolLimit maxLevel space.grammar.terminals .zero

end ProgramSynthesis
