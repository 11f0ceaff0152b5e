import ProgramSynthesis.Candidate.Compile
import ProgramSynthesis.Expr.Eval
import ProgramSynthesis.Grammar
import ProgramSynthesis.Proofs.Fallible

/-!
# Typing

Typing rules for expressions and for candidates, stated apart from the checker of the grammar.
A well-typed candidate compiles to an expression of its type, and a well-typed expression
evaluates, without a fault, to a value of its type wherever the declared names are bound.
-/

namespace ProgramSynthesis

/-- The type of both operands of a two-operand form. -/
def BinaryOp.operandTy : BinaryOp → Ty
  | plus | times | lt => .int
  | and => .bool

/-- The type of a two-operand form. -/
def BinaryOp.resultTy : BinaryOp → Ty
  | plus | times => .int
  | lt | and => .bool

/-- The operator of candidates that compiles to a two-operand form. -/
def BinaryOp.op : BinaryOp → Op
  | plus => .plus
  | times => .times
  | lt => .lt
  | and => .and

/-- Both operands of a two-operand form have one type. -/
theorem BinaryOp.signature_op (form : BinaryOp) :
    form.op.signature = ⟨[form.operandTy, form.operandTy], form.resultTy⟩ := by
  cases form <;> rfl

/-- Every operator is a two-operand form, the negation or the conditional. -/
theorem Op.form_cases (op : Op) : (∃ form : BinaryOp, op = form.op) ∨ op = .not ∨ op = .ite := by
  cases op with
  | plus => exact .inl ⟨.plus, rfl⟩
  | times => exact .inl ⟨.times, rfl⟩
  | lt => exact .inl ⟨.lt, rfl⟩
  | and => exact .inl ⟨.and, rfl⟩
  | not => exact .inr (.inl rfl)
  | ite => exact .inr (.inr rfl)

/-- A two-operand form reads its first two operands. -/
theorem Candidate.compile_binary (form : BinaryOp) (left right : Candidate)
    (rest : List Candidate) : (node form.op (left :: right :: rest)).compile = (do
      return .binary form (← left.compile) (← right.compile)) := by
  cases form <;> rfl

/-- The typing rules of expressions over declared names. -/
inductive Expr.HasType (names : List String) : Expr → Ty → Prop where
  /-- The constant is a truth value. -/
  | falsity : HasType names falsity .bool
  /-- A literal is an integer. -/
  | number (value : Int64) : HasType names (number value) .int
  /-- A declared variable is an integer. -/
  | var {name : String} (declared : name ∈ names) : HasType names (var name) .int
  /-- The negation of a truth value is a truth value. -/
  | not {operand : Expr} (typed : HasType names operand .bool) : HasType names (not operand) .bool
  /-- A two-operand form over its operand type has its result type. -/
  | binary {op : BinaryOp} {left right : Expr} (leftTyped : HasType names left op.operandTy)
    (rightTyped : HasType names right op.operandTy) :
    HasType names (binary op left right) op.resultTy
  /-- A conditional chooses between integers by a truth value. -/
  | ite {condition consequent alternative : Expr} (conditionTyped : HasType names condition .bool)
    (consequentTyped : HasType names consequent .int)
    (alternativeTyped : HasType names alternative .int) :
    HasType names (ite condition consequent alternative) .int

/-- Whether an environment binds each of some names. -/
def Env.BindsAll (env : Env) (names : List String) : Prop := ∀ name ∈ names, env.binds name = true

instance (env : Env) (names : List String) : Decidable (env.BindsAll names) :=
  inferInstanceAs (Decidable (∀ name ∈ names, env.binds name = true))

/-- Only an integer has the integer type. -/
theorem Value.exists_of_ty_int {value : Value} (typed : value.ty = .int) :
    ∃ number, value = .int number := by
  cases value with
  | int number => exact ⟨number, rfl⟩
  | bool flag => cases typed

/-- Only a truth value has the type of truth values. -/
theorem Value.exists_of_ty_bool {value : Value} (typed : value.ty = .bool) :
    ∃ flag, value = .bool flag := by
  cases value with
  | int number => cases typed
  | bool flag => exact ⟨flag, rfl⟩

/-- A two-operand form is defined on values of its operand type. -/
theorem BinaryOp.apply_of_ty {op : BinaryOp} {left right : Value}
    (leftTyped : left.ty = op.operandTy) (rightTyped : right.ty = op.operandTy) :
    ∃ value, op.apply left right = .ok value ∧ value.ty = op.resultTy := by
  cases op with
  | plus | times | lt =>
    obtain ⟨first, rfl⟩ := Value.exists_of_ty_int leftTyped
    obtain ⟨second, rfl⟩ := Value.exists_of_ty_int rightTyped
    exact ⟨_, rfl, rfl⟩
  | and =>
    obtain ⟨first, rfl⟩ := Value.exists_of_ty_bool leftTyped
    obtain ⟨second, rfl⟩ := Value.exists_of_ty_bool rightTyped
    cases first with
    | true => exact ⟨_, rfl, rfl⟩
    | false => exact ⟨_, rfl, rfl⟩

/-- A well-typed expression evaluates to a value of its type. -/
theorem Expr.HasType.eval {names : List String} {env : Env} {program : Expr} {ty : Ty}
    (typed : program.HasType names ty) (bound : env.BindsAll names) :
    ∃ value, program.eval env = .ok value ∧ value.ty = ty := by
  induction typed with
  | falsity => exact ⟨_, rfl, rfl⟩
  | number value => exact ⟨_, rfl, rfl⟩
  | var declared =>
    obtain ⟨value, found⟩ := Option.isSome_iff_exists.mp (bound _ declared)
    exact ⟨.int value, by rw [Expr.eval, found], rfl⟩
  | not _ ih =>
    obtain ⟨value, evaluated, kind⟩ := ih
    obtain ⟨flag, rfl⟩ := Value.exists_of_ty_bool kind
    exact ⟨.bool !flag, by rw [Expr.eval, evaluated]; rfl, rfl⟩
  | binary _ _ leftIh rightIh =>
    obtain ⟨left, leftEvaluated, leftKind⟩ := leftIh
    obtain ⟨right, rightEvaluated, rightKind⟩ := rightIh
    obtain ⟨value, applied, kind⟩ := BinaryOp.apply_of_ty leftKind rightKind
    exact ⟨value, by rw [Expr.eval, leftEvaluated, rightEvaluated]; exact applied, kind⟩
  | ite _ _ _ conditionIh consequentIh alternativeIh =>
    obtain ⟨chosen, evaluated, kind⟩ := conditionIh
    obtain ⟨flag, rfl⟩ := Value.exists_of_ty_bool kind
    cases flag with
    | true =>
      obtain ⟨value, armEvaluated, armKind⟩ := consequentIh
      exact ⟨value, by rw [Expr.eval, evaluated]; exact armEvaluated, armKind⟩
    | false =>
      obtain ⟨value, armEvaluated, armKind⟩ := alternativeIh
      exact ⟨value, by rw [Expr.eval, evaluated]; exact armEvaluated, armKind⟩

/-- The type of a candidate, read off its head. -/
def Candidate.ty : Candidate → Ty
  | leaf (.var _) => .int
  | leaf (.number _) => .int
  | leaf .falsity => .bool
  | node op _ => op.signature.ret

/-- The typing rules of candidates: variables are declared, and every operator has the
operands its signature asks for. -/
inductive Grammar.WellTyped (grammar : Grammar) : Candidate → Prop where
  /-- A declared variable. -/
  | var {name : String} (declared : name ∈ grammar.names) : WellTyped grammar (.leaf (.var name))
  /-- A literal. -/
  | number (value : Int64) : WellTyped grammar (.leaf (.number value))
  /-- The constant. -/
  | falsity : WellTyped grammar (.leaf .falsity)
  /-- An operator over well-typed operands of the types of its signature. -/
  | node {op : Op} {operands : List Candidate}
    (suited : operands.map Candidate.ty = op.signature.args)
    (each : ∀ operand ∈ operands, WellTyped grammar operand) :
    WellTyped grammar (.node op operands)

/-- The head of a candidate promises the type of the candidate, unless it is a variable that is
not declared. -/
theorem Grammar.resultType_eq_ok_iff {grammar : Grammar} {candidate : Candidate} {ty : Ty} :
    grammar.resultType candidate = .ok ty ↔
      (∀ name, candidate = .leaf (.var name) → name ∈ grammar.names) ∧ candidate.ty = ty := by
  rw [Grammar.resultType]
  cases candidate with
  | node op operands => simp [Candidate.head, Grammar.signature, Candidate.ty]
  | leaf terminal =>
    cases terminal with
    | number value => simp [Candidate.head, Grammar.signature, Signature.terminal, Candidate.ty]
    | falsity => simp [Candidate.head, Grammar.signature, Signature.terminal, Candidate.ty]
    | var name =>
      have known : grammar.declares name = true ↔ name ∈ grammar.names := List.contains_iff_mem
      by_cases declared : name ∈ grammar.names
      · simp [Candidate.head, Grammar.signature, known, declared, Signature.terminal, Candidate.ty]
      · simp [Candidate.head, Grammar.signature, known, declared]

namespace Grammar.WellTyped

variable {grammar : Grammar} {candidate : Candidate}

/-- The head of a well-typed candidate promises the type of the candidate. -/
theorem resultType (typed : grammar.WellTyped candidate) :
    grammar.resultType candidate = .ok candidate.ty := by
  refine resultType_eq_ok_iff.mpr ⟨?_, rfl⟩
  rintro name rfl
  cases typed with
  | var declared => exact declared

/-- A well-typed candidate compiles to an expression of its type. The signature fixes the number
of operands, so each operator meets its own pattern. -/
theorem compile (typed : grammar.WellTyped candidate) :
    ∃ program, candidate.compile = .ok program ∧ program.HasType grammar.names candidate.ty := by
  induction typed with
  | var declared => exact ⟨_, rfl, .var declared⟩
  | number value => exact ⟨_, rfl, .number value⟩
  | falsity => exact ⟨_, rfl, .falsity⟩
  | @node op operands suited each ih =>
    rcases op.form_cases with ⟨form, rfl⟩ | rfl | rfl
    · rw [form.signature_op] at suited
      obtain ⟨left, tail, rfl, leftTy, suited⟩ := List.map_eq_cons_iff.mp suited
      obtain ⟨right, rest, rfl, rightTy, _⟩ := List.map_eq_cons_iff.mp suited
      obtain ⟨leftProgram, leftCompiled, leftTyped⟩ := ih left (by simp)
      obtain ⟨rightProgram, rightCompiled, rightTyped⟩ := ih right (by simp)
      rw [leftTy] at leftTyped
      rw [rightTy] at rightTyped
      refine ⟨.binary form leftProgram rightProgram, ?_, ?_⟩
      · rw [Candidate.compile_binary, leftCompiled, rightCompiled]
        rfl
      · rw [Candidate.ty, form.signature_op]
        exact .binary leftTyped rightTyped
    · obtain ⟨operand, rest, rfl, operandTy, _⟩ := List.map_eq_cons_iff.mp suited
      obtain ⟨program, compiled, programTyped⟩ := ih operand (by simp)
      rw [operandTy] at programTyped
      refine ⟨.not program, ?_, .not programTyped⟩
      rw [Candidate.compile, compiled]
      rfl
    · obtain ⟨condition, tail, rfl, conditionTy, suited⟩ := List.map_eq_cons_iff.mp suited
      obtain ⟨consequent, tail, rfl, consequentTy, suited⟩ := List.map_eq_cons_iff.mp suited
      obtain ⟨alternative, rest, rfl, alternativeTy, _⟩ := List.map_eq_cons_iff.mp suited
      obtain ⟨first, firstCompiled, firstTyped⟩ := ih condition (by simp)
      obtain ⟨second, secondCompiled, secondTyped⟩ := ih consequent (by simp)
      obtain ⟨third, thirdCompiled, thirdTyped⟩ := ih alternative (by simp)
      rw [conditionTy] at firstTyped
      rw [consequentTy] at secondTyped
      rw [alternativeTy] at thirdTyped
      refine ⟨.ite first second third, ?_, .ite firstTyped secondTyped thirdTyped⟩
      rw [Candidate.compile, firstCompiled, secondCompiled, thirdCompiled]
      rfl

end Grammar.WellTyped

end ProgramSynthesis
