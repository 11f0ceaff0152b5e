import ProgramSynthesis.Grammar
import ProgramSynthesis.Growth.Policy
import ProgramSynthesis.Word

/-!
# Growth of a pool

One round of growth applies operators to every choice of operands that the policy allows, and
puts the results behind the pool it started from. Operands are drawn from that old pool, so a
round raises the height of the tallest candidate by at most one. The choices of one operator
follow each other in lexicographic order, the last operand varying fastest.

Before a round its size is counted without building it. Counting saturates at the largest
machine word.
-/

namespace ProgramSynthesis

/-- Every way to choose one member of each list, the choice in the last list varying
fastest. -/
def choices {α : Type} : List (List α) → List (List α)
  | [] => [[]]
  | options :: rest =>
    let tails := choices rest
    options.flatMap fun option => tails.map fun tail => option :: tail

/-- What a search may build programs from. -/
structure SearchSpace where
  /-- The declared terminals. -/
  grammar : Grammar
  /-- Where operands come from. -/
  policy : GrowthPolicy
  /-- The operators to apply, in the order in which they are tried. -/
  ops : List Op
deriving DecidableEq

namespace SearchSpace

/-- The candidates that one operand may be, given where it comes from and its type. -/
def operandsFrom (space : SearchSpace) (pool : List Candidate) (source : OperandSource)
    (ty : Ty) : Except Fault (List Candidate) :=
  match source with
  | .pool => space.grammar.ofType ty pool
  | .names => .ok space.grammar.variableTerminals
  | .terminals => .ok space.grammar.intTerminals

/-- The candidates that each operand of an operator may be. -/
def operands (space : SearchSpace) (pool : List Candidate) (op : Op) :
    Except Fault (List (List Candidate)) :=
  ((space.policy.sources op).zip op.signature.args).mapM fun position =>
    space.operandsFrom pool position.1 position.2

/-- The number of choices of operands of an operator. -/
def growthOf (space : SearchSpace) (pool : List Candidate) (op : Op) : Except Fault Nat := do
  return (← space.operands pool op).foldl
    (fun product options => min (product * options.length) maxCount) 1

/-- The number of candidates that a round adds. -/
def growthSize (space : SearchSpace) (pool : List Candidate) : Except Fault Nat := do
  return (← space.ops.mapM (space.growthOf pool)).foldl
    (fun sum growth => min (sum + growth) maxCount) 0

/-- Every application of an operator to operands that a pool allows. -/
def applications (space : SearchSpace) (pool : List Candidate) (op : Op) :
    Except Fault (List Candidate) := do
  (choices (← space.operands pool op)).mapM (Candidate.apply op)

/-- The pool, followed by every application of each operator in turn. -/
def grow (space : SearchSpace) (pool : List Candidate) : Except Fault (List Candidate) := do
  return pool ++ (← space.ops.mapM (space.applications pool)).flatten

end SearchSpace

end ProgramSynthesis
