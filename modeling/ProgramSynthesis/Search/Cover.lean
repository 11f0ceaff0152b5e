import ProgramSynthesis.Search.Config
import ProgramSynthesis.Search.Level

/-!
# Covering the examples

Instead of one program that is right everywhere, a cover is a list of programs that are each
right somewhere and together right everywhere. Its members come from a pool in which every
candidate carries the mask of the examples it solves, and they are picked greedily: each pick
solves the most examples that are still uncovered.
-/

namespace ProgramSynthesis

/-- A candidate and the examples it solves. -/
structure Scored where
  /-- The candidate. -/
  candidate : Candidate
  /-- The examples it solves. -/
  mask : Mask
deriving DecidableEq, Repr

/-- The integer programs within the cover rounds, each with the examples it solves. Only
these can stand in a branch. -/
def score (config : SearchConfig) (grammar : Grammar) (examples : List Example)
    (counters : Counters) : Except Fault (Report (List Scored)) := do
  match ← growLevels (config.space grammar) examples config.poolLimit config.coverRounds
      grammar.terminals counters with
  | ⟨none, counters⟩ => return ⟨none, counters⟩
  | ⟨some pool, counters⟩ =>
    let programs ← grammar.ofType .int pool
    let counters ← counters.recordChecks programs.length
    let scored ← programs.mapM fun candidate => do
      return Scored.mk candidate (← candidate.mask examples)
    return ⟨some scored, counters⟩

/-- The best entry so far with its gain, improved by the entries that follow. -/
def bestFrom (uncovered : Mask) :
    Option (Scored × Nat) → List Scored → Except Fault (Option (Scored × Nat))
  | best, [] => .ok best
  | best, entry :: scored => do
    let gain ← entry.mask.countWithin uncovered
    if (best.map Prod.snd).getD 0 < gain then
      bestFrom uncovered (some (entry, gain)) scored
    else
      bestFrom uncovered best scored

/-- The entry that solves the most uncovered examples, the earliest of equals; none if no
entry solves any. -/
def bestFor (scored : List Scored) (uncovered : Mask) : Except Fault (Option Scored) := do
  return (← bestFrom uncovered none scored).map Prod.fst

/-- A best entry comes with the number of uncovered examples it solves, and solves one at
least. -/
theorem gain_of_bestFrom {uncovered : Mask} {scored : List Scored} {entry : Scored} {gain : Nat} :
    ∀ {best : Option (Scored × Nat)},
      (∀ pair ∈ best, pair.1.mask.countWithin uncovered = .ok pair.2 ∧ 0 < pair.2) →
      bestFrom uncovered best scored = .ok (some (entry, gain)) →
      entry.mask.countWithin uncovered = .ok gain ∧ 0 < gain := by
  induction scored with
  | nil =>
    intro best held found
    simp only [bestFrom, Except.ok.injEq] at found
    exact held (entry, gain) (by simp [found])
  | cons first scored ih =>
    intro best held found
    simp only [bestFrom, bind, Except.bind] at found
    split at found
    · contradiction
    · rename_i firstGain counted
      split at found
      · rename_i larger
        refine ih (fun pair inside => ?_) found
        obtain rfl := Option.some.inj inside
        exact ⟨counted, by omega⟩
      · exact ih held found

/-- The best entry solves an uncovered example. -/
theorem gain_of_bestFor {scored : List Scored} {uncovered : Mask} {entry : Scored}
    (found : bestFor scored uncovered = .ok (some entry)) :
    ∃ gain, entry.mask.countWithin uncovered = .ok gain ∧ 0 < gain := by
  simp only [bestFor, bind, Except.bind] at found
  split at found
  · contradiction
  · rename_i best counted
    cases best with
    | none => simp [pure, Except.pure] at found
    | some pair =>
      obtain ⟨chosen, gain⟩ := pair
      simp only [pure, Except.pure, Option.map_some, Except.ok.injEq, Option.some.injEq] at found
      subst found
      exact ⟨gain, gain_of_bestFrom (by simp) counted⟩

end ProgramSynthesis
