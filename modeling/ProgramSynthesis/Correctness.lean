import ProgramSynthesis.Candidate.Compile
import ProgramSynthesis.Example.Basic
import ProgramSynthesis.Expr.Eval
import ProgramSynthesis.Mask

/-!
# Programs against examples

Three views of one program on one list of examples: its output vector, the mask of the
examples it gets right, and whether it gets all of them right. The first two evaluate the
program on every example; the third stops at the first example that it gets wrong.
-/

namespace ProgramSynthesis

namespace Expr

/-- The outputs of a program, in example order. -/
def outputs (program : Expr) (examples : List Example) : Except Fault (List Value) :=
  examples.mapM fun case => program.eval case.input

/-- The examples on which a program returns the expected output. -/
def mask (program : Expr) (examples : List Example) : Except Fault Mask := do
  return ⟨← examples.mapM fun case => do
    return decide ((← program.eval case.input) = case.output)⟩

/-- Whether a program returns the expected output on every example. -/
def isCorrect (program : Expr) : List Example → Except Fault Bool
  | [] => .ok true
  | case :: examples => do
    if (← program.eval case.input) = case.output then
      program.isCorrect examples
    else
      return false

end Expr

namespace Candidate

/-- The outputs of a candidate, in example order. -/
def outputs (candidate : Candidate) (examples : List Example) : Except Fault (List Value) := do
  (← candidate.compile).outputs examples

/-- The examples on which a candidate returns the expected output. -/
def mask (candidate : Candidate) (examples : List Example) : Except Fault Mask := do
  (← candidate.compile).mask examples

/-- Whether a candidate returns the expected output on every example. -/
def isCorrect (candidate : Candidate) (examples : List Example) : Except Fault Bool := do
  (← candidate.compile).isCorrect examples

end Candidate

end ProgramSynthesis
