import ProgramSynthesis.Fault
import ProgramSynthesis.Word

/-!
# Search counters

What a search did, searches it started included. Counters are machine words: an addition
that does not fit is a fault, never a wrapped number. A `Report` joins the answer of a search,
if it has one, with its counters.
-/

namespace ProgramSynthesis

/-- The sum of two counts, which must fit a machine word. -/
def addCount (count amount : Nat) : Except Fault Nat :=
  if count + amount ≤ maxCount then .ok (count + amount) else .error (.overflow .add)

/-- A sum of counts is exact when there is one. -/
theorem addCount_eq_ok_iff (count amount sum : Nat) :
    addCount count amount = .ok sum ↔ count + amount = sum ∧ sum ≤ maxCount := by
  unfold addCount
  split
  · rename_i fits
    constructor
    · rintro ⟨⟩
      exact ⟨rfl, fits⟩
    · rintro ⟨rfl, _⟩
      rfl
  · rename_i large
    constructor
    · rintro ⟨⟩
    · rintro ⟨rfl, fits⟩
      exact absurd fits large

/-- Counts collected over a search. -/
structure Counters where
  /-- Growth rounds performed. -/
  levels : Nat
  /-- Candidates produced by growth. -/
  grown : Nat
  /-- Candidates that survived reduction. -/
  kept : Nat
  /-- Candidates checked against the examples. -/
  checked : Nat
  /-- The largest pool before reduction. -/
  largest : Nat
  /-- Searches for a branch condition. -/
  separators : Nat
deriving DecidableEq, Repr

namespace Counters

/-- Nothing has been done yet. -/
def zero : Counters := ⟨0, 0, 0, 0, 0, 0⟩

/-- Count one growth round that added `growth` candidates, reached `size` of them and kept
`survivors`. -/
def recordLevel (counters : Counters) (growth size survivors : Nat) :
    Except Fault Counters := do
  let levels ← addCount counters.levels 1
  let grown ← addCount counters.grown growth
  let kept ← addCount counters.kept survivors
  return { counters with levels, grown, kept, largest := max counters.largest size }

/-- Count checked candidates. -/
def recordChecks (counters : Counters) (amount : Nat) : Except Fault Counters := do
  return { counters with checked := ← addCount counters.checked amount }

/-- Count one search for a branch condition. -/
def recordSeparator (counters : Counters) : Except Fault Counters := do
  return { counters with separators := ← addCount counters.separators 1 }

/-- Add the counters of a search that was part of this one. -/
def absorb (counters part : Counters) : Except Fault Counters := do
  let levels ← addCount counters.levels part.levels
  let grown ← addCount counters.grown part.grown
  let kept ← addCount counters.kept part.kept
  let checked ← addCount counters.checked part.checked
  let separators ← addCount counters.separators part.separators
  return { levels, grown, kept, checked, separators
           largest := max counters.largest part.largest }

end Counters

/-- The answer of a search, none when its bounds were exhausted first, and its counters. -/
structure Report (α : Type) where
  /-- What was found. -/
  result : Option α
  /-- What it took. -/
  counters : Counters
deriving DecidableEq, Repr

end ProgramSynthesis
