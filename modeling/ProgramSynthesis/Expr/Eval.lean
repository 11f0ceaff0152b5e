import ProgramSynthesis.Env
import ProgramSynthesis.Value

/-!
# Evaluation

`Expr.eval` computes the value of an expression in an environment. Integer arithmetic wraps
to 64 bits. Both operands of a two-operand form are evaluated before either is inspected; a
conjunction whose left operand is false does not inspect the right one, and a conditional
evaluates only the arm it chooses.
-/

namespace ProgramSynthesis

/-- The value of a two-operand form at two values, the left one inspected first. -/
def BinaryOp.apply (op : BinaryOp) (left right : Value) : Except Fault Value :=
  match op with
  | plus => do return .int ((← left.asInt) + (← right.asInt))
  | times => do return .int ((← left.asInt) * (← right.asInt))
  | lt => do return .bool (decide ((← left.asInt) < (← right.asInt)))
  | and => do
    if ← left.asBool then
      return .bool (← right.asBool)
    else
      return .bool false

/-- The value of an expression in an environment, or the first fault met. -/
def Expr.eval (env : Env) : Expr → Except Fault Value
  | falsity => .ok (.bool false)
  | number value => .ok (.int value)
  | var name =>
    match env.get? name with
    | some value => .ok (.int value)
    | none => .error (.unboundVariable name)
  | not operand => do
    let value ← operand.eval env
    return .bool (!(← value.asBool))
  | binary op left right => do
    let leftValue ← left.eval env
    let rightValue ← right.eval env
    op.apply leftValue rightValue
  | ite condition consequent alternative => do
    let chosen ← condition.eval env
    if ← chosen.asBool then
      consequent.eval env
    else
      alternative.eval env

/-- Evaluation depends on an environment only through its view. -/
theorem Expr.eval_congr {env other : Env} (view : ∀ name, env.get? name = other.get? name)
    (program : Expr) : program.eval env = program.eval other := by
  induction program with
  | falsity => rfl
  | number value => rfl
  | var name => simp only [eval, view]
  | not operand ih => simp only [eval, ih]
  | binary op left right leftIh rightIh => simp only [eval, leftIh, rightIh]
  | ite condition consequent alternative conditionIh consequentIh alternativeIh =>
    simp only [eval, conditionIh, consequentIh, alternativeIh]

end ProgramSynthesis
