import ProgramSynthesis.Correctness
import Std.Data.HashSet.Basic

/-!
# Observational equivalence

Two candidates with the same output vector are interchangeable for the rest of a search over
the same examples, so a pool keeps only the first candidate of each vector. The vectors seen
so far are kept in a hash set, which makes one pass over the pool enough.
-/

namespace ProgramSynthesis

/-- Keep the candidates whose output vector is not yet seen, after those already kept. -/
def reduceFrom (examples : List Example) (seen : Std.HashSet (List Value))
    (kept : List Candidate) : List Candidate → Except Fault (List Candidate)
  | [] => .ok kept.reverse
  | candidate :: pool => do
    let vector ← candidate.outputs examples
    match seen.containsThenInsert vector with
    | (true, seen) => reduceFrom examples seen kept pool
    | (false, seen) => reduceFrom examples seen (candidate :: kept) pool

/-- The first candidate of each output vector, in pool order. -/
def reduce (pool : List Candidate) (examples : List Example) : Except Fault (List Candidate) :=
  reduceFrom examples ∅ [] pool

end ProgramSynthesis
