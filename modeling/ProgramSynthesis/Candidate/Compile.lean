import ProgramSynthesis.Candidate.Basic

/-!
# Candidates as expressions

`Candidate.compile` turns a candidate into the expression it stands for. Each operator reads
its operands from the left; a candidate with too few of them has no expression, and operands
beyond its signature are not read.
-/

namespace ProgramSynthesis

/-- The expression of a terminal. -/
def Terminal.expr : Terminal → Expr
  | var name => .var name
  | number value => .number value
  | falsity => .falsity

/-- The expression of a candidate. -/
def Candidate.compile : Candidate → Except Fault Expr
  | leaf terminal => .ok terminal.expr
  | node .plus (left :: right :: _) => do
    return .binary .plus (← left.compile) (← right.compile)
  | node .times (left :: right :: _) => do
    return .binary .times (← left.compile) (← right.compile)
  | node .lt (left :: right :: _) => do
    return .binary .lt (← left.compile) (← right.compile)
  | node .and (left :: right :: _) => do
    return .binary .and (← left.compile) (← right.compile)
  | node .not (operand :: _) => do
    return .not (← operand.compile)
  | node .ite (condition :: consequent :: alternative :: _) => do
    return .ite (← condition.compile) (← consequent.compile) (← alternative.compile)
  | node _ _ => .error .missingOperand
termination_by structural candidate => candidate

end ProgramSynthesis
