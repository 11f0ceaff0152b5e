import ProgramSynthesis.Problem
import ProgramSynthesis.Search.Unification

/-!
# Synthesis

The public entry point: choose a strategy and settings, give the declarations and examples,
and get a program that is correct on every example, or the news that the bounds were exhausted
first. The settings and the problem are validated before anything is grown.
-/

namespace ProgramSynthesis

/-- How to search. -/
inductive Strategy where
  /-- Grow whole programs and check them. -/
  | enumerative
  /-- Cover the examples by pieces and unify them under conditions. -/
  | unification
deriving DecidableEq, Repr

/-- Search for a program that solves a problem. -/
def Problem.solve (problem : Problem) (config : SearchConfig) :
    Strategy → Except Fault (Report Expr)
  | .enumerative => do
    let report ← enumerativeSearch (config.space problem.grammar) problem.examples
      config.maxLevel config.poolLimit
    match report.result with
    | none => return ⟨none, report.counters⟩
    | some found => return ⟨some (← found.compile), report.counters⟩
  | .unification => unificationSearch config problem.grammar problem.examples

/-- Validate the settings and the problem, then search. -/
def synthesize (strategy : Strategy) (config : SearchConfig) (names : List String)
    (constants : List Int64) (examples : List Example) :
    Except Fault (Except ProblemError (Report Expr)) :=
  if config.maxLevel = 0 then
    .ok (.error .zeroLevel)
  else
    match Problem.validate names constants examples with
    | .error error => .ok (.error error)
    | .ok problem => do
      return .ok (← problem.solve config strategy)

end ProgramSynthesis
