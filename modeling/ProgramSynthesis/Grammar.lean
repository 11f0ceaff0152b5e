import ProgramSynthesis.Candidate.Basic

/-!
# Grammars

A grammar lists the declared variables and the integer literals of one synthesis problem.
Together with the operator signatures it types every candidate, and it supplies the terminals
that growth starts from.
-/

namespace ProgramSynthesis

/-- The declared inputs and the literals of a problem, in the order of their declaration. -/
structure Grammar where
  /-- The names a program may read. -/
  names : List String
  /-- The integers a program may mention. -/
  constants : List Int64
deriving DecidableEq, Repr

namespace Grammar

/-- Whether a name is declared. -/
def declares (grammar : Grammar) (name : String) : Bool := grammar.names.contains name

/-- The signature of a head. An undeclared variable has none. -/
def signature (grammar : Grammar) : Head → Except Fault Signature
  | .operator op => .ok op.signature
  | .terminal (.var name) =>
    if grammar.declares name then
      .ok (.terminal .int)
    else
      .error (.undeclaredVariable name)
  | .terminal (.number _) => .ok (.terminal .int)
  | .terminal .falsity => .ok (.terminal .bool)

/-- The type that the head of a candidate promises. -/
def resultType (grammar : Grammar) (candidate : Candidate) : Except Fault Ty := do
  return (← grammar.signature candidate.head).ret

/-- The members of a pool whose heads promise a type, in pool order. -/
def ofType (grammar : Grammar) (ty : Ty) (pool : List Candidate) :
    Except Fault (List Candidate) :=
  pool.filterM fun candidate => do
    return decide ((← grammar.resultType candidate) = ty)

mutual

/-- Whether every node of a candidate has the operands its signature asks for. -/
def isWellTyped (grammar : Grammar) : Candidate → Except Fault Bool
  | .leaf terminal => do
    let _ ← grammar.signature (.terminal terminal)
    return true
  | .node op operands =>
    if op.arity = operands.length then
      operandsWellTyped grammar op.signature.args operands
    else
      .ok false
termination_by structural candidate => candidate

/-- Whether operands have the wanted types, and are well typed themselves. -/
def operandsWellTyped (grammar : Grammar) (wanted : List Ty) :
    List Candidate → Except Fault Bool
  | [] => .ok true
  | operand :: operands =>
    match wanted with
    | [] => .ok true
    | ty :: wanted => do
      if (← grammar.resultType operand) = ty then
        if ← isWellTyped grammar operand then
          operandsWellTyped grammar wanted operands
        else
          return false
      else
        return false
termination_by structural operands => operands

end

/-- The declared variables as candidates. -/
def variableTerminals (grammar : Grammar) : List Candidate :=
  grammar.names.map fun name => .leaf (.var name)

/-- The literals as candidates. -/
def constantTerminals (grammar : Grammar) : List Candidate :=
  grammar.constants.map fun value => .leaf (.number value)

/-- The variables, then the literals. -/
def intTerminals (grammar : Grammar) : List Candidate :=
  grammar.variableTerminals ++ grammar.constantTerminals

/-- The candidates that growth starts from: variables, literals, then false. -/
def terminals (grammar : Grammar) : List Candidate :=
  grammar.intTerminals ++ [.leaf .falsity]

end Grammar

end ProgramSynthesis
