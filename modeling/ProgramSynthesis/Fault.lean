import ProgramSynthesis.Op
import ProgramSynthesis.Expr.Basic

/-!
# Faults

A fault is a broken invariant: a program of the wrong type was evaluated, a name was never
bound, a list has the wrong length, a counter left its range. Inputs that pass validation
never cause one. Every operation that relies on an invariant returns its fault instead of a
made-up value, and `Fault.message` is the single place that words it.
-/

namespace ProgramSynthesis

/-- The checked integer operations. -/
inductive Arithmetic where
  /-- Addition. -/
  | add
  /-- Multiplication. -/
  | multiply
  /-- Change of sign. -/
  | negate
deriving DecidableEq, Repr

/-- The verb that names a checked operation. -/
def Arithmetic.verb : Arithmetic → String
  | add => "add"
  | multiply => "multiply"
  | negate => "negate"

/-- The invariants that can be found broken. -/
inductive Fault where
  /-- A truth value stands where an integer is needed. -/
  | expectedInt (given : Bool)
  /-- An integer stands where a truth value is needed. -/
  | expectedBool (given : Int64)
  /-- A program reads a name that its input does not bind. -/
  | unboundVariable (name : String)
  /-- A candidate mentions a name that its grammar does not declare. -/
  | undeclaredVariable (name : String)
  /-- An operator was used without operands. -/
  | operatorLeaf
  /-- An operator was applied to the wrong number of operands. -/
  | wrongArity (op : Op) (given : Nat)
  /-- A candidate has fewer operands than its operator needs. -/
  | missingOperand
  /-- A restriction lists the wrong number of operand sources. -/
  | wrongSourceCount (op : Op) (given : Nat)
  /-- A restriction sends an operand that is not an integer to the terminals. -/
  | restrictedBoolean (op : Op)
  /-- Two masks over different numbers of examples were combined. -/
  | maskLengths (left right : Nat)
  /-- A value was to be drawn between bounds that admit none. -/
  | emptyRange
  /-- A result does not fit its machine integer. -/
  | overflow (operation : Arithmetic)
  /-- The pieces of a finished program leave an example uncovered. -/
  | uncovered
  /-- A finished program fails on an example. -/
  | wrongOnCover (program : Expr)
deriving DecidableEq, Repr

namespace Fault

/-- The wording of a failed comparison of two numbers that must be equal. -/
def unequal (claim : String) (left right : Nat) : String :=
  s!"assertion `left == right` failed{claim}\n  left: {left}\n right: {right}"

/-- The text that describes a fault. -/
def message : Fault → String
  | expectedInt given => s!"expected an integer, got boolean {given}"
  | expectedBool given => "expected a boolean, got integer " ++ decimal given
  | unboundVariable name => s!"variable `{name}` is not bound in the environment"
  | undeclaredVariable name => s!"unknown tag: variable `{name}` is not declared"
  | operatorLeaf => "operators need operands"
  | wrongArity op given => unequal s!": wrong arity for {op.name}" op.arity given
  | missingOperand => "operand count matches the signature"
  | wrongSourceCount op given =>
    unequal s!": {op.name} takes {op.arity} operands" given op.arity
  | restrictedBoolean op =>
    s!"{op.name}: only integer operands can be restricted to terminals"
  | maskLengths left right => unequal "" left right
  | emptyRange => "cannot sample empty range"
  | overflow operation => s!"attempt to {operation.verb} with overflow"
  | uncovered => "unified program does not cover every example"
  | wrongOnCover program => s!"unified program {program.render} is wrong on its own cover"

end Fault

end ProgramSynthesis
