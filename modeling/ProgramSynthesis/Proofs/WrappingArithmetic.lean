import Mathlib.Data.Int.ModEq
import ProgramSynthesis.Expr.Eval
import ProgramSynthesis.Proofs.Fallible
import ProgramSynthesis.Proofs.Typing

/-!
# Wrapping arithmetic

Programs are evaluated a second time, over unbounded integers, and the two evaluations are
compared. Sums and products of words are the words of the exact sums and products, so a program
built from literals, variables, sums and products returns the word of its exact value, whatever
wraps on the way. A comparison looks at the word itself, and a comparison decides which arm of a
conditional is evaluated; there the two evaluations agree as long as the exact values of the sums
and products that are evaluated are words.
-/

namespace ProgramSynthesis

/-- The result of a program over unbounded integers. -/
inductive ExactValue where
  /-- An integer. -/
  | int (value : Int)
  /-- A truth value. -/
  | bool (value : Bool)
deriving DecidableEq, Repr

/-- A value as one over unbounded integers. -/
def Value.exact : Value → ExactValue
  | int value => .int value.toInt
  | bool value => .bool value

/-- The value of a two-operand form over unbounded integers, if its operands are of the right
kind. A conjunction whose left operand is false does not look at the right one. -/
def BinaryOp.applyExact : BinaryOp → ExactValue → ExactValue → Option ExactValue
  | plus, .int left, .int right => some (.int (left + right))
  | times, .int left, .int right => some (.int (left * right))
  | lt, .int left, .int right => some (.bool (decide (left < right)))
  | and, .bool false, _ => some (.bool false)
  | and, .bool true, .bool right => some (.bool right)
  | _, _, _ => none

/-- The value of an expression over unbounded integers, if its names are bound and its operands
are of the right kind. -/
def Expr.evalExact (env : Env) : Expr → Option ExactValue
  | falsity => some (.bool false)
  | number value => some (.int value.toInt)
  | var name => (env.get? name).map fun value => .int value.toInt
  | not operand => do
    match ← operand.evalExact env with
    | .bool value => return .bool (!value)
    | .int _ => none
  | binary op left right => do
    op.applyExact (← left.evalExact env) (← right.evalExact env)
  | ite condition consequent alternative => do
    match ← condition.evalExact env with
    | .bool true => consequent.evalExact env
    | .bool false => alternative.evalExact env
    | .int _ => none

/-- Whether a two-operand form is a sum or a product. -/
def BinaryOp.IsArithmetic (op : BinaryOp) : Prop :=
  op = .plus ∨ op = .times

/-- Whether an expression is built from literals, bound variables, sums and products. -/
inductive Expr.Polynomial (env : Env) : Expr → Prop where
  /-- A literal. -/
  | number (value : Int64) : Polynomial env (number value)
  /-- A bound variable. -/
  | var {name : String} (bound : env.binds name = true) : Polynomial env (var name)
  /-- A sum or a product. -/
  | binary {op : BinaryOp} {left right : Expr} (arithmetic : op.IsArithmetic)
    (leftHolds : Polynomial env left) (rightHolds : Polynomial env right) :
    Polynomial env (binary op left right)

/-- The expressions that are evaluated when an expression is: both operands of a two-operand form
unless the left one faults, and the arm of a conditional that its condition chooses. -/
inductive Expr.Evaluates (env : Env) : Expr → Expr → Prop where
  /-- The expression itself. -/
  | self (program : Expr) : Evaluates env program program
  /-- In the operand of a negation. -/
  | not {operand part : Expr} (inside : Evaluates env operand part) :
    Evaluates env (not operand) part
  /-- In the left operand. -/
  | left {op : BinaryOp} {left right part : Expr} (inside : Evaluates env left part) :
    Evaluates env (binary op left right) part
  /-- In the right operand, once the left one has a value. -/
  | right {op : BinaryOp} {left right part : Expr} {value : Value}
    (returned : left.eval env = .ok value) (inside : Evaluates env right part) :
    Evaluates env (binary op left right) part
  /-- In the condition. -/
  | condition {condition consequent alternative part : Expr}
    (inside : Evaluates env condition part) :
    Evaluates env (ite condition consequent alternative) part
  /-- In the first arm, when the condition holds. -/
  | consequent {condition consequent alternative part : Expr}
    (holds : condition.eval env = .ok (.bool true)) (inside : Evaluates env consequent part) :
    Evaluates env (ite condition consequent alternative) part
  /-- In the second arm, when the condition fails. -/
  | alternative {condition consequent alternative part : Expr}
    (fails : condition.eval env = .ok (.bool false)) (inside : Evaluates env alternative part) :
    Evaluates env (ite condition consequent alternative) part

/-- Whether the exact value of every sum and product that is evaluated is a word. -/
def Expr.StaysExact (env : Env) (program : Expr) : Prop :=
  ∀ op left right exact, op.IsArithmetic → program.Evaluates env (binary op left right) →
    (binary op left right).evalExact env = some (.int exact) →
      -2 ^ 63 ≤ exact ∧ exact < 2 ^ 63

section

variable {env : Env} {program left right : Expr} {op : BinaryOp}

/-- The word of an integer is congruent to it. -/
theorem toInt_ofInt_modEq (exact : Int) : (Int64.ofInt exact).toInt ≡ exact [ZMOD 2 ^ 64] := by
  rw [Int64.toInt_ofInt]
  exact Int.bmod_emod

/-- Sums and products of the words of integers are the words of their exact sums and products. -/
theorem BinaryOp.exists_apply_ofInt (arithmetic : op.IsArithmetic) (first second : Int) :
    ∃ exact, op.apply (.int (.ofInt first)) (.int (.ofInt second)) =
        .ok (.int (.ofInt exact)) ∧
      op.applyExact (.int first) (.int second) = some (.int exact) := by
  obtain rfl | rfl := arithmetic
  · exact ⟨first + second, by rw [Int64.ofInt_add]; rfl, rfl⟩
  · exact ⟨first * second, by rw [Int64.ofInt_mul]; rfl, rfl⟩

/-- A program of sums and products returns the word of its exact value. -/
theorem Expr.Polynomial.exists_exact (polynomial : program.Polynomial env) :
    ∃ exact, program.eval env = .ok (.int (.ofInt exact)) ∧
      program.evalExact env = some (.int exact) := by
  induction polynomial with
  | number value => exact ⟨value.toInt, by rw [Int64.ofInt_toInt]; rfl, rfl⟩
  | @var name bound =>
    obtain ⟨value, found⟩ := Option.isSome_iff_exists.mp bound
    refine ⟨value.toInt, ?_, ?_⟩
    · rw [Int64.ofInt_toInt, eval, found]
    · rw [evalExact, found]
      rfl
  | @binary op left right arithmetic _ _ leftIh rightIh =>
    obtain ⟨first, leftReturned, leftExact⟩ := leftIh
    obtain ⟨second, rightReturned, rightExact⟩ := rightIh
    obtain ⟨exact, returned, computed⟩ := op.exists_apply_ofInt arithmetic first second
    refine ⟨exact, ?_, ?_⟩
    · rw [eval, leftReturned, rightReturned]
      exact returned
    · rw [evalExact, leftExact, rightExact]
      exact computed

/-- Arithmetic and comparison return a value on integers only. -/
theorem BinaryOp.exists_of_apply {first second value : Value} (integers : op.operandTy = .int)
    (returned : op.apply first second = .ok value) :
    ∃ number other, first = .int number ∧ second = .int other := by
  cases op with
  | plus | times | lt =>
    obtain ⟨number, isNumber, returned⟩ := bind_eq_ok_iff.mp returned
    obtain ⟨other, isOther, _⟩ := bind_eq_ok_iff.mp returned
    exact ⟨number, other, (Value.asInt_eq_ok_iff _ _).mp isNumber,
      (Value.asInt_eq_ok_iff _ _).mp isOther⟩
  | and => cases integers

/-- A two-operand form agrees with its exact form where an exact integer result is a word. -/
theorem BinaryOp.applyExact_eq {first second value : Value}
    (returned : op.apply first second = .ok value)
    (fits : op.IsArithmetic → ∀ exact,
      op.applyExact first.exact second.exact = some (.int exact) →
        -2 ^ 63 ≤ exact ∧ exact < 2 ^ 63) :
    op.applyExact first.exact second.exact = some value.exact := by
  cases op with
  | plus =>
    obtain ⟨number, other, rfl, rfl⟩ := exists_of_apply rfl returned
    cases returned
    obtain ⟨low, high⟩ := fits (.inl rfl) _ rfl
    have sum : (number + other).toInt = number.toInt + other.toInt := by
      rw [← Int64.toInt_ofInt_of_le low high, Int64.ofInt_add, Int64.ofInt_toInt,
        Int64.ofInt_toInt]
    simp only [applyExact, Value.exact, sum]
  | times =>
    obtain ⟨number, other, rfl, rfl⟩ := exists_of_apply rfl returned
    cases returned
    obtain ⟨low, high⟩ := fits (.inr rfl) _ rfl
    have product : (number * other).toInt = number.toInt * other.toInt := by
      rw [← Int64.toInt_ofInt_of_le low high, Int64.ofInt_mul, Int64.ofInt_toInt,
        Int64.ofInt_toInt]
    simp only [applyExact, Value.exact, product]
  | lt =>
    obtain ⟨number, other, rfl, rfl⟩ := exists_of_apply rfl returned
    cases returned
    simp only [applyExact, Value.exact, Int64.lt_iff_toInt_lt]
  | and =>
    obtain ⟨flag, isFlag, rest⟩ := bind_eq_ok_iff.mp returned
    obtain rfl := (Value.asBool_eq_ok_iff _ _).mp isFlag
    cases flag with
    | false =>
      cases rest
      rfl
    | true =>
      rw [if_pos rfl] at rest
      obtain ⟨other, isOther, rest⟩ := bind_eq_ok_iff.mp rest
      obtain rfl := (Value.asBool_eq_ok_iff _ _).mp isOther
      cases rest
      rfl

namespace Expr

/-- Where the exact values of a whole program are words, so are those of the parts that are
evaluated. -/
theorem StaysExact.part {part : Expr} (stays : program.StaysExact env)
    (reaches : ∀ inner, part.Evaluates env inner → program.Evaluates env inner) :
    part.StaysExact env := fun op left right exact arithmetic inside =>
  stays op left right exact arithmetic (reaches _ inside)

/-- An evaluation in which every exact sum and product is a word is exact. -/
theorem StaysExact.evalExact_eq (stays : program.StaysExact env) {value : Value}
    (returned : program.eval env = .ok value) : program.evalExact env = some value.exact := by
  induction program generalizing value with
  | falsity =>
    cases returned
    rfl
  | number number =>
    cases returned
    rfl
  | var name =>
    rw [eval] at returned
    rw [evalExact]
    split at returned
    · rename_i number found
      cases returned
      rw [found]
      rfl
    · cases returned
  | not operand ih =>
    obtain ⟨inner, operandReturned, returned⟩ := bind_eq_ok_iff.mp returned
    obtain ⟨flag, isFlag, returned⟩ := bind_eq_ok_iff.mp returned
    rw [Value.asBool_eq_ok_iff] at isFlag
    subst isFlag
    cases returned
    have exact := ih (stays.part fun _ => .not) operandReturned
    rw [evalExact, exact]
    rfl
  | binary op left right leftIh rightIh =>
    obtain ⟨first, leftReturned, returned⟩ := bind_eq_ok_iff.mp returned
    obtain ⟨second, rightReturned, returned⟩ := bind_eq_ok_iff.mp returned
    have leftExact := leftIh (stays.part fun _ => .left) leftReturned
    have rightExact := rightIh (stays.part fun _ => .right leftReturned) rightReturned
    have here : (binary op left right).evalExact env =
        op.applyExact first.exact second.exact := by
      rw [evalExact, leftExact, rightExact]
      rfl
    rw [here]
    refine BinaryOp.applyExact_eq returned fun arithmetic exact computed => ?_
    exact stays op left right exact arithmetic (.self _) (here.trans computed)
  | ite condition consequent alternative conditionIh consequentIh alternativeIh =>
    obtain ⟨chosen, conditionReturned, returned⟩ := bind_eq_ok_iff.mp returned
    obtain ⟨flag, isFlag, returned⟩ := bind_eq_ok_iff.mp returned
    rw [Value.asBool_eq_ok_iff] at isFlag
    subst isFlag
    have conditionExact := conditionIh (stays.part fun _ => .condition) conditionReturned
    rw [evalExact, conditionExact]
    cases flag with
    | true => exact consequentIh (stays.part fun _ => .consequent conditionReturned) returned
    | false => exact alternativeIh (stays.part fun _ => .alternative conditionReturned) returned

end Expr

/-- Wrapping arithmetic is exact modulo the word size. A program of literals, bound variables,
sums and products returns the one word that is congruent to its exact value, whatever wraps on the
way. Any program that returns a value returns what it does over unbounded integers, comparisons
and conditionals included, if the exact value of every sum and product that is evaluated is a
word. -/
theorem wrapping_arithmetic_is_exact (env : Env) (program : Expr) :
    (program.Polynomial env → ∃ word exact, program.eval env = .ok (.int word) ∧
      program.evalExact env = some (.int exact) ∧
      (-2 ^ 63 ≤ word.toInt ∧ word.toInt < 2 ^ 63) ∧ word.toInt ≡ exact [ZMOD 2 ^ 64]) ∧
    ∀ value, program.eval env = .ok value → program.StaysExact env →
      program.evalExact env = some value.exact := by
  constructor
  · intro polynomial
    obtain ⟨exact, returned, computed⟩ := polynomial.exists_exact
    have low := Int64.minValue_le_toInt (.ofInt exact)
    have high := Int64.toInt_le (.ofInt exact)
    exact ⟨.ofInt exact, exact, returned, computed, ⟨low, Int.lt_add_one_of_le high⟩,
      toInt_ofInt_modEq exact⟩
  · exact fun value returned stays => stays.evalExact_eq returned

/-- At the largest word the square of the successor wraps to zero, and a conditional that does not
evaluate the successor is exact. -/
theorem wrapping_arithmetic_is_exact_at_maximum :
    (∃ word exact,
      (Expr.binary .times (.binary .plus (.var "x") (.number 1))
          (.binary .plus (.var "x") (.number 1))).eval (.ofList [("x", .maxValue)]) =
        .ok (.int word) ∧
      (Expr.binary .times (.binary .plus (.var "x") (.number 1))
          (.binary .plus (.var "x") (.number 1))).evalExact (.ofList [("x", .maxValue)]) =
        some (.int exact) ∧
      (-2 ^ 63 ≤ word.toInt ∧ word.toInt < 2 ^ 63) ∧ word.toInt ≡ exact [ZMOD 2 ^ 64]) ∧
    (Expr.ite (.binary .lt (.number 0) (.var "x")) (.var "x")
        (.binary .plus (.var "x") (.number 1))).evalExact (.ofList [("x", .maxValue)]) =
      some (Value.int .maxValue).exact := by
  have successor : (Expr.binary .plus (.var "x") (.number 1)).Polynomial
      (.ofList [("x", .maxValue)]) :=
    .binary (.inl rfl) (.var rfl) (.number 1)
  have stays : (Expr.ite (.binary .lt (.number 0) (.var "x")) (.var "x")
      (.binary .plus (.var "x") (.number 1))).StaysExact (.ofList [("x", .maxValue)]) := by
    intro op left right exact arithmetic inside
    cases inside with
    | condition inside =>
      cases inside with
      | self => obtain isLt | isLt := arithmetic <;> cases isLt
      | left inside | right _ inside => cases inside
    | consequent _ inside => cases inside
    | alternative fails _ => cases fails
  exact ⟨(wrapping_arithmetic_is_exact _ _).1 (.binary (.inr rfl) successor successor),
    (wrapping_arithmetic_is_exact _ _).2 _ rfl stays⟩

end

end ProgramSynthesis
