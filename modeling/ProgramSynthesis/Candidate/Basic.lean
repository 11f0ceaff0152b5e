import ProgramSynthesis.Fault

/-!
# Candidates

A candidate is a program under construction: a terminal, or an operator over a list of
operands. Growth only ever stacks operators on candidates that already exist, so a candidate
keeps the shape in which it was built and is turned into an expression when it is run. Its
written form names the head of every node in brackets.
-/

namespace ProgramSynthesis

/-- The programs that growth starts from. -/
inductive Terminal where
  /-- An input of the program. -/
  | var (name : String)
  /-- An integer literal. -/
  | number (value : Int64)
  /-- The constant false. -/
  | falsity
deriving DecidableEq, Hashable, Repr

/-- What can stand at the top of a candidate. -/
inductive Head where
  /-- An operator, which needs operands. -/
  | operator (op : Op)
  /-- A terminal, which has none. -/
  | terminal (terminal : Terminal)
deriving DecidableEq, Repr

/-- A program under construction. -/
inductive Candidate where
  /-- A terminal. -/
  | leaf (terminal : Terminal)
  /-- An operator over its operands in order. -/
  | node (op : Op) (operands : List Candidate)
deriving Repr

/-- The written form of a terminal. -/
def Terminal.text : Terminal → String
  | var name => "[VARIABLE, " ++ name ++ "]"
  | number value => "[NUM, " ++ decimal value ++ "]"
  | falsity => "[FALSE]"

namespace Candidate

/-- The top of a candidate. -/
def head : Candidate → Head
  | leaf terminal => .terminal terminal
  | node op _ => .operator op

/-- The operands of a candidate; a terminal has none. -/
def operands : Candidate → List Candidate
  | leaf _ => []
  | node _ operands => operands

/-- The candidate that consists of a head alone; an operator cannot stand alone. -/
def ofHead : Head → Except Fault Candidate
  | .operator _ => .error .operatorLeaf
  | .terminal terminal => .ok (leaf terminal)

/-- An operator over operands, as many as its signature asks for. -/
def apply (op : Op) (operands : List Candidate) : Except Fault Candidate :=
  if operands.length = op.arity then
    .ok (node op operands)
  else
    .error (.wrongArity op operands.length)

mutual

/-- The written form of a candidate. -/
def text : Candidate → String
  | leaf terminal => terminal.text
  | node op operands => "[" ++ op.name ++ operandsText operands ++ "]"
termination_by structural candidate => candidate

/-- The written forms of operands, a comma and a space before each. -/
def operandsText : List Candidate → String
  | [] => ""
  | operand :: operands => ", " ++ operand.text ++ operandsText operands
termination_by structural operands => operands

end

mutual

/-- Equality of candidates is decided node by node. -/
protected def decEq : (left right : Candidate) → Decidable (left = right)
  | leaf first, leaf second =>
    if same : first = second then isTrue (by rw [same]) else isFalse (by simpa using same)
  | leaf _, node _ _ => isFalse (by simp)
  | node _ _, leaf _ => isFalse (by simp)
  | node first firstOperands, node second secondOperands =>
    if same : first = second then
      match Candidate.decEqList firstOperands secondOperands with
      | isTrue alike => isTrue (by rw [same, alike])
      | isFalse differ => isFalse (by simp [differ])
    else isFalse (by simp [same])
termination_by structural left => left

/-- Equality of operand lists is decided operand by operand. -/
protected def decEqList : (left right : List Candidate) → Decidable (left = right)
  | [], [] => isTrue rfl
  | [], _ :: _ => isFalse (by simp)
  | _ :: _, [] => isFalse (by simp)
  | first :: firsts, second :: seconds =>
    match Candidate.decEq first second, Candidate.decEqList firsts seconds with
    | isTrue same, isTrue alike => isTrue (by rw [same, alike])
    | isFalse differ, _ => isFalse (by simp [differ])
    | _, isFalse differ => isFalse (by simp [differ])
termination_by structural left => left

end

instance : DecidableEq Candidate := Candidate.decEq

/-- Application succeeds exactly when the operands fill the signature. -/
theorem apply_eq_ok_iff (op : Op) (operands : List Candidate) (candidate : Candidate) :
    apply op operands = .ok candidate ↔
      operands.length = op.arity ∧ candidate = node op operands := by
  unfold apply
  split
  · rename_i fits
    simp [fits, eq_comm]
  · rename_i differs
    simp [differs]

/-- To prove something of every candidate, prove it of terminals, and of a node from its
operands. -/
@[elab_as_elim]
theorem operandsInduction {motive : Candidate → Prop}
    (leaf : ∀ terminal, motive (leaf terminal))
    (node : ∀ op operands, (∀ operand ∈ operands, motive operand) → motive (node op operands)) :
    ∀ candidate, motive candidate := by
  intro candidate
  refine Candidate.rec (motive_1 := motive)
    (motive_2 := fun operands => ∀ operand ∈ operands, motive operand)
    leaf (fun op operands ih => node op operands ih) ?_ ?_ candidate
  · intro operand inside
    cases inside
  · intro first rest firstHolds restHold operand inside
    rcases List.mem_cons.mp inside with rfl | later
    · exact firstHolds
    · exact restHold operand later

end Candidate

end ProgramSynthesis
