import ProgramSynthesis.Env
import ProgramSynthesis.Value

/-!
# Examples

An example asks a program for one output at one input. A synthesis problem is a list of them.
-/

namespace ProgramSynthesis

/-- An input and the output expected at it. -/
structure Example where
  /-- The values of the inputs. -/
  input : Env
  /-- What a correct program returns. -/
  output : Value
deriving DecidableEq, Repr

/-- The same input with another expected output. -/
def Example.relabel (case : Example) (output : Value) : Example := { case with output }

end ProgramSynthesis
