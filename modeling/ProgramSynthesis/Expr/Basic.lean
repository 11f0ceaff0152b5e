/-!
# Expressions

The programs that are evaluated and shown to users: integer arithmetic, comparison and
conjunction, negation, and a conditional. An expression need not be well typed. Its written
form puts parentheses around every compound part, so no precedence is needed to read it.
-/

namespace ProgramSynthesis

/-- The two-operand forms of an expression. -/
inductive BinaryOp where
  /-- Sum. -/
  | plus
  /-- Product. -/
  | times
  /-- Strict comparison. -/
  | lt
  /-- Conjunction. -/
  | and
deriving DecidableEq, Hashable, Repr

/-- The sign written between the two operands. -/
def BinaryOp.symbol : BinaryOp → String
  | plus => "+"
  | times => "*"
  | lt => "<"
  | and => "&&"

/-- A program over named integer inputs. -/
inductive Expr where
  /-- The constant false. -/
  | falsity
  /-- An integer literal. -/
  | number (value : Int64)
  /-- The value bound to a name. -/
  | var (name : String)
  /-- Negation of a truth value. -/
  | not (operand : Expr)
  /-- A two-operand form. -/
  | binary (op : BinaryOp) (left right : Expr)
  /-- One of two programs, chosen by a third. -/
  | ite (condition consequent alternative : Expr)
deriving DecidableEq, Repr

/-- An integer is written in decimal, with a minus sign when it is negative. -/
def decimal (value : Int64) : String := toString value.toInt

/-- The written form of an expression: every compound part stands in parentheses. -/
def Expr.render : Expr → String
  | falsity => "false"
  | number value => decimal value
  | var name => name
  | not operand => "(!" ++ operand.render ++ ")"
  | binary op left right => "(" ++ left.render ++ op.symbol ++ right.render ++ ")"
  | ite condition consequent alternative =>
    "(if " ++ condition.render ++ " then " ++ consequent.render ++ " else " ++
      alternative.render ++ ")"

end ProgramSynthesis
