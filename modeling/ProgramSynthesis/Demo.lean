import ProgramSynthesis.Example.Sample
import ProgramSynthesis.Random.Keystream
import ProgramSynthesis.Word

/-!
# Demonstration problems

Three small problems with a reference each. A problem has fixed inputs; instead of these,
inputs can be drawn from the stream of a seed. References compute exactly: a result beyond 64
bits is a fault, which inputs between -20 and 20 never cause.
-/

namespace ProgramSynthesis

/-- The demonstration problems. -/
inductive Demo where
  /-- The smaller of two integers. -/
  | min
  /-- The sum of two integers if the second is smaller, else the second with its sign
  changed. -/
  | sumOrNegate
  /-- A product chosen by two nested conditions. -/
  | nested
deriving DecidableEq, Repr

/-- An exact result as a 64-bit integer, if it fits. -/
def checkedInt (operation : Arithmetic) (exact : Int) : Except Fault Int64 :=
  match int64? exact with
  | some value => .ok value
  | none => .error (.overflow operation)

namespace Demo

/-- The declared variables. -/
def names : Demo → List String
  | min | sumOrNegate => ["x", "y"]
  | nested => ["a", "b", "c"]

/-- The literals. -/
def constants : Demo → List Int64
  | min => [4, 5]
  | sumOrNegate => [-1, 5]
  | nested => [0]

/-- What a correct program returns. A name that is not bound counts as zero. -/
def reference (demo : Demo) (input : Env) : Except Fault Value := do
  let read (name : String) : Int := ((input.get? name).getD 0).toInt
  match demo with
  | min => return .int (.ofInt (Min.min (read "x") (read "y")))
  | sumOrNegate =>
    if read "y" < read "x" then
      return .int (← checkedInt .add (read "x" + read "y"))
    else
      return .int (← checkedInt .negate (-read "y"))
  | nested =>
    if 0 < read "c" then
      if read "a" < read "b" then
        return .int (← checkedInt .multiply (read "a" * read "c"))
      else
        return .int 0
    else
      return .int (← checkedInt .multiply (read "b" * read "c"))

/-- The fixed inputs, one value per variable. -/
def fixedInputs : Demo → List (List Int64)
  | min => [[5, 10], [8, 3]]
  | sumOrNegate => [[10, 7], [4, 7], [10, 3], [1, -7], [1, 8]]
  | nested => [[5, 10, 3], [8, 11, -1], [3, 6, 4], [-3, 8, 4], [-3, -8, 4]]

/-- The least value that is drawn. -/
def sampleLow : Int64 := -20

/-- The greatest value that is drawn. -/
def sampleHigh : Int64 := 20

/-- The examples at the fixed inputs. -/
def fixedExamples (demo : Demo) : Except Fault (List Example) :=
  demo.fixedInputs.mapM fun values => do
    let input := Env.ofList (demo.names.zip values)
    return ⟨input, ← demo.reference input⟩

/-- A number of examples at inputs drawn from a stream. -/
def sampledExamples (demo : Demo) (stream : WordStream) (count : Nat) :
    Except Fault (List Example) := do
  let (examples, _) ← sampleExamples stream demo.names count sampleLow sampleHigh
    demo.reference
  return examples

/-- The fixed examples, or a number of examples drawn with a seed. -/
def examples (demo : Demo) (sample : Option Nat) (seed : UInt64) : Except Fault (List Example) :=
  match sample with
  | none => demo.fixedExamples
  | some count => demo.sampledExamples (.ofSeed seed) count

end Demo

end ProgramSynthesis
