import ProgramSynthesis.Example.Basic
import ProgramSynthesis.Random.Uniform

/-!
# Sampled examples

Draw inputs at random and let a reference label each one. The variables of one input are
drawn in their order, and an input is labelled before the next one is drawn. A variable that
is listed again is drawn again, and its last value stays.
-/

namespace ProgramSynthesis

/-- Draw the variables of one input after those already drawn; also the position after the
words it took. -/
def drawInput (stream : WordStream) (low high : Int64) :
    List String → Env → Nat → Except Fault (Env × Nat)
  | [], input, position => .ok (input, position)
  | name :: names, input, position => do
    let (value, position) ← stream.uniform low high position
    drawInput stream low high names (input.insert name value) position

/-- Draw and label a number of inputs, after the examples already made. -/
def sampleFrom (stream : WordStream) (names : List String) (low high : Int64)
    (reference : Env → Except Fault Value) (made : List Example) :
    Nat → Nat → Except Fault (List Example × Nat)
  | 0, position => .ok (made.reverse, position)
  | count + 1, position => do
    let (input, position) ← drawInput stream low high names .empty position
    let output ← reference input
    sampleFrom stream names low high reference (⟨input, output⟩ :: made) count position

/-- A number of random inputs, each labelled by a reference, and the number of words they
took. -/
def sampleExamples (stream : WordStream) (names : List String) (count : Nat)
    (low high : Int64) (reference : Env → Except Fault Value) :
    Except Fault (List Example × Nat) :=
  sampleFrom stream names low high reference [] count 0

end ProgramSynthesis
