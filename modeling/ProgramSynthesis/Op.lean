/-!
# Operators and their signatures

The two types of the language, the six operators that build larger programs from smaller
ones, and the fixed signature of each: the types of its operands in order, and the type of
its result.
-/

namespace ProgramSynthesis

/-- The type of a program: an integer or a truth value. -/
inductive Ty where
  /-- 64-bit integers. -/
  | int
  /-- Truth values. -/
  | bool
deriving DecidableEq, Hashable, Repr

/-- The operand types of an operator in order, and its result type. -/
structure Signature where
  /-- One type per operand. -/
  args : List Ty
  /-- The type of the result. -/
  ret : Ty
deriving DecidableEq, Repr

namespace Signature

/-- A program without operands. -/
def terminal (ret : Ty) : Signature := ⟨[], ret⟩

/-- The number of operands. -/
def arity (signature : Signature) : Nat := signature.args.length

end Signature

/-- The operators of the language. -/
inductive Op where
  /-- Sum of two integers. -/
  | plus
  /-- Product of two integers. -/
  | times
  /-- Strict comparison of two integers. -/
  | lt
  /-- Conjunction. -/
  | and
  /-- Negation. -/
  | not
  /-- Choice between two integers. -/
  | ite
deriving DecidableEq, Hashable, Repr

namespace Op

/-- Every operator, in the order in which they are tried. -/
def all : List Op := [plus, times, lt, and, not, ite]

/-- The operators whose result is a truth value; branch conditions are built from these. -/
def booleans : List Op := [lt, and, not]

/-- The signature of an operator. -/
def signature : Op → Signature
  | plus => ⟨[.int, .int], .int⟩
  | times => ⟨[.int, .int], .int⟩
  | lt => ⟨[.int, .int], .bool⟩
  | and => ⟨[.bool, .bool], .bool⟩
  | not => ⟨[.bool], .bool⟩
  | ite => ⟨[.bool, .int, .int], .int⟩

/-- The number of operands of an operator. -/
def arity (op : Op) : Nat := op.signature.arity

/-- The written name of an operator. -/
def name : Op → String
  | plus => "PLUS"
  | times => "TIMES"
  | lt => "LT"
  | and => "AND"
  | not => "NOT"
  | ite => "ITE"

/-- The position of an operator in `Op.all`. -/
def rank : Op → Nat
  | plus => 0
  | times => 1
  | lt => 2
  | and => 3
  | not => 4
  | ite => 5

/-- Operators in the order of `Op.all`; repetitions are kept. -/
def sort (ops : List Op) : List Op := ops.mergeSort fun left right => left.rank ≤ right.rank

/-- No operator is left out of `Op.all`. -/
theorem mem_all (op : Op) : op ∈ all := by cases op <;> decide

/-- The rank of an operator is its position in `Op.all`. -/
theorem getElem?_all_rank (op : Op) : all[op.rank]? = some op := by cases op <;> rfl

/-- The boolean operators are those that return a truth value. -/
theorem mem_booleans_iff (op : Op) : op ∈ booleans ↔ op.signature.ret = .bool := by
  cases op <;> decide

/-- Every operator takes at least one operand. -/
theorem arity_pos (op : Op) : 0 < op.arity := by cases op <;> decide

end Op

end ProgramSynthesis
