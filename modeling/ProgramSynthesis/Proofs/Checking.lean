import ProgramSynthesis.Proofs.Typing

/-!
# The type check and what it promises

The grammar's check accepts exactly the candidates that the typing rules admit: on a node it
stops at the first operand that fails, so an accepted node has had every operand examined. A
candidate that passes runs without a fault wherever the declared names are bound, and its value
is of the type that its head promises.
-/

namespace ProgramSynthesis

namespace Grammar

variable {grammar : Grammar} {candidate : Candidate}

/-- An operand passes when it has the wanted type and is accepted itself. -/
def Passes (grammar : Grammar) (operand : Candidate) (ty : Ty) : Prop :=
  grammar.resultType operand = .ok ty ∧ grammar.isWellTyped operand = .ok true

/-- The check of one operand, and of the operands after it. -/
theorem operandsWellTyped_cons_eq_true_iff {ty : Ty} {wanted : List Ty} {operand : Candidate}
    {operands : List Candidate} :
    grammar.operandsWellTyped (ty :: wanted) (operand :: operands) = .ok true ↔
      grammar.Passes operand ty ∧ grammar.operandsWellTyped wanted operands = .ok true := by
  rw [operandsWellTyped, Passes]
  cases promised : grammar.resultType operand with
  | error fault => simp
  | ok given =>
    rw [ok_bind, Except.ok.injEq]
    by_cases same : given = ty
    · rw [if_pos same]
      cases grammar.isWellTyped operand with
      | error fault => simp
      | ok accepted => cases accepted <;> simp [same]
    · simp [same]

/-- As many operands as types are accepted exactly when each passes at its type. -/
theorem operandsWellTyped_eq_true_iff {wanted : List Ty} {operands : List Candidate}
    (counted : operands.length = wanted.length) :
    grammar.operandsWellTyped wanted operands = .ok true ↔
      List.Forall₂ grammar.Passes operands wanted := by
  induction operands generalizing wanted with
  | nil =>
    have none : wanted = [] := List.length_eq_zero_iff.mp counted.symm
    simp [none, operandsWellTyped]
  | cons operand operands ih =>
    obtain ⟨ty, wanted, rfl⟩ := List.exists_cons_of_length_eq_add_one counted.symm
    have fewer : operands.length = wanted.length := Nat.succ.inj counted
    rw [operandsWellTyped_cons_eq_true_iff, ih fewer, List.forall₂_cons]

/-- A terminal is accepted exactly when its head promises a type. -/
theorem isWellTyped_leaf_eq_true_iff {terminal : Terminal} :
    grammar.isWellTyped (.leaf terminal) = .ok true ↔ grammar.WellTyped (.leaf terminal) := by
  rw [isWellTyped]
  constructor
  · intro accepted
    obtain ⟨signature, known, _⟩ := bind_eq_ok_iff.mp accepted
    have promised : grammar.resultType (.leaf terminal) = .ok signature.ret :=
      bind_eq_ok_iff.mpr ⟨signature, known, rfl⟩
    have declared := (resultType_eq_ok_iff.mp promised).1
    cases terminal with
    | var name => exact .var (declared name rfl)
    | number value => exact .number value
    | falsity => exact .falsity
  · intro typed
    obtain ⟨signature, known, _⟩ := bind_eq_ok_iff.mp typed.resultType
    exact bind_eq_ok_iff.mpr ⟨signature, known, rfl⟩

/-- Operands pass at the types of a signature when they have these types and are accepted. -/
theorem forall₂_passes_iff {wanted : List Ty} {operands : List Candidate}
    (decided : ∀ operand ∈ operands,
      (grammar.isWellTyped operand = .ok true ↔ grammar.WellTyped operand)) :
    List.Forall₂ grammar.Passes operands wanted ↔
      operands.map Candidate.ty = wanted ∧ ∀ operand ∈ operands, grammar.WellTyped operand := by
  have single : ∀ operand ty, (operand, ty) ∈ operands.zip wanted →
      (grammar.Passes operand ty ↔ grammar.WellTyped operand ∧ operand.ty = ty) := by
    intro operand ty facing
    rw [Passes, decided operand (List.of_mem_zip facing).1, and_comm]
    refine and_congr_right fun typed => ?_
    rw [typed.resultType, Except.ok.injEq]
  rw [forall₂_congr_of_zip single, List.forall₂_and_left, and_comm, ← List.forall₂_eq_eq_eq,
    List.forall₂_map_left_iff]

/-- The check accepts exactly the candidates that the typing rules admit. -/
theorem isWellTyped_eq_true_iff :
    grammar.isWellTyped candidate = .ok true ↔ grammar.WellTyped candidate := by
  induction candidate using Candidate.operandsInduction with
  | leaf terminal => exact isWellTyped_leaf_eq_true_iff
  | node op operands ih =>
    rw [isWellTyped]
    by_cases counted : op.arity = operands.length
    · rw [if_pos counted, operandsWellTyped_eq_true_iff counted.symm, forall₂_passes_iff ih]
      constructor
      · rintro ⟨suited, each⟩
        exact .node suited each
      · intro typed
        cases typed with
        | node suited each => exact ⟨suited, each⟩
    · rw [if_neg counted]
      refine ⟨nofun, fun typed => ?_⟩
      cases typed with
      | node suited _ =>
        have filled : operands.length = op.arity := by
          rw [← List.length_map Candidate.ty, suited]
          rfl
        exact absurd filled.symm counted

/-- What passes the type check runs. In every environment that binds at least the declared names,
a candidate that the check accepts compiles, the program evaluates without a fault, and its value
is of the type that the head of the candidate promises: an integer or a truth value. -/
theorem eval_of_isWellTyped (grammar : Grammar) (candidate : Candidate) (env : Env)
    (accepted : grammar.isWellTyped candidate = .ok true) (bound : env.BindsAll grammar.names) :
    ∃ program value, candidate.compile = .ok program ∧ program.eval env = .ok value ∧
      grammar.resultType candidate = .ok value.ty := by
  have typed : grammar.WellTyped candidate := isWellTyped_eq_true_iff.mp accepted
  obtain ⟨program, compiled, programTyped⟩ := typed.compile
  obtain ⟨value, evaluated, kind⟩ := programTyped.eval bound
  have promised : grammar.resultType candidate = .ok value.ty := by
    rw [typed.resultType, kind]
  exact ⟨program, value, compiled, evaluated, promised⟩

/-- A conditional whose condition negates a conjunction, over two names and a literal that the
grammar does not list. -/
def mixedCandidate : Candidate :=
  .node .ite [
    .node .not [.node .and [
      .node .lt [.leaf (.var "x"), .node .times [.leaf (.var "y"), .leaf (.number 7)]],
      .leaf .falsity]],
    .node .plus [.leaf (.var "x"), .leaf (.number 7)],
    .leaf (.var "y")]

/-- The conditional passes and runs where a third name is bound as well. -/
theorem eval_mixedCandidate :
    Grammar.isWellTyped ⟨["x", "y"], []⟩ mixedCandidate = .ok true ∧
    (Env.ofList [("z", 0), ("x", 5), ("y", -2)]).BindsAll ["x", "y"] ∧
    ∃ program value, mixedCandidate.compile = .ok program ∧
      program.eval (.ofList [("z", 0), ("x", 5), ("y", -2)]) = .ok value ∧
      Grammar.resultType ⟨["x", "y"], []⟩ mixedCandidate = .ok value.ty := by
  have accepted : Grammar.isWellTyped ⟨["x", "y"], []⟩ mixedCandidate = .ok true := by decide
  have bound : (Env.ofList [("z", 0), ("x", 5), ("y", -2)]).BindsAll ["x", "y"] := by decide
  exact ⟨accepted, bound, eval_of_isWellTyped _ mixedCandidate _ accepted bound⟩

end Grammar

end ProgramSynthesis
