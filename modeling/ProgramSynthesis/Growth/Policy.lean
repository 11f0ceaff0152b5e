import ProgramSynthesis.Fault

/-!
# Growth policies

A growth policy says, for each operand position of each operator, which candidates may stand
there: any member of the pool, only variables, or only variables and literals. Restricting an
operator makes the search smaller and may put programs out of its reach. An operator that was
never restricted draws every operand from the pool; restricting it to exactly that is
recorded, and makes a different policy.
-/

namespace ProgramSynthesis

/-- Where the candidates of one operand position come from. -/
inductive OperandSource where
  /-- Every pool member of the right type. -/
  | pool
  /-- The declared variables. -/
  | names
  /-- The declared variables and the literals. -/
  | terminals
deriving DecidableEq, Hashable, Repr

/-- A source suits an operand type when it yields candidates of that type: only integer
operands can be sent to the terminals. -/
def OperandSource.Suits (source : OperandSource) (ty : Ty) : Prop := source = .pool ∨ ty = .int

instance (source : OperandSource) (ty : Ty) : Decidable (source.Suits ty) :=
  inferInstanceAs (Decidable (source = .pool ∨ ty = .int))

/-- Sources suit an operator when there is one per operand and each suits its type. -/
def Op.Accepts (op : Op) (sources : List OperandSource) : Prop :=
  sources.length = op.arity ∧ ∀ pair ∈ sources.zip op.signature.args, pair.1.Suits pair.2

instance (op : Op) (sources : List OperandSource) : Decidable (op.Accepts sources) :=
  inferInstanceAs (Decidable (_ ∧ _))

/-- The restrictions in force, at most one list of sources per operator. -/
structure GrowthPolicy where
  /-- The sources of a restricted operator. -/
  restriction : Op → Option (List OperandSource)
  /-- Only lists that suit their operator are in force. -/
  accepts : ∀ op sources, restriction op = some sources → op.Accepts sources

namespace GrowthPolicy

/-- Policies are equal when they restrict every operator alike. -/
theorem ext_restriction {left right : GrowthPolicy}
    (same : ∀ op, left.restriction op = right.restriction op) : left = right := by
  cases left
  cases right
  congr
  exact funext same

instance : DecidableEq GrowthPolicy := fun left right =>
  if same : ∀ op ∈ Op.all, left.restriction op = right.restriction op then
    isTrue (ext_restriction fun op => same op op.mem_all)
  else
    isFalse fun equal => same fun _ _ => by rw [equal]

/-- No restrictions: every operand comes from the pool. -/
def exhaustive : GrowthPolicy where
  restriction _ := none
  accepts _ _ impossible := nomatch impossible

/-- Products only of a variable and a terminal, comparisons only of terminals. -/
def restricted : GrowthPolicy where
  restriction
    | .times => some [.names, .terminals]
    | .lt => some [.terminals, .terminals]
    | _ => none
  accepts op sources found := by
    cases op <;> simp only [Option.some.injEq, reduceCtorEq] at found <;> subst found <;> decide

/-- Restrict an operator, in place of an earlier restriction of it. -/
def restrict (policy : GrowthPolicy) (op : Op) (sources : List OperandSource) :
    Except Fault GrowthPolicy :=
  if counted : sources.length = op.arity then
    if suited : ∀ pair ∈ sources.zip op.signature.args, pair.1.Suits pair.2 then
      .ok {
        restriction := fun other => if other = op then some sources else policy.restriction other
        accepts := by
          intro other found same
          split at same
          · rename_i chosen
            obtain rfl := Option.some.inj same
            exact chosen ▸ ⟨counted, suited⟩
          · exact policy.accepts other found same }
    else
      .error (.restrictedBoolean op)
  else
    .error (.wrongSourceCount op sources.length)

/-- The source of each operand of an operator. -/
def sources (policy : GrowthPolicy) (op : Op) : List OperandSource :=
  (policy.restriction op).getD (List.replicate op.arity .pool)

/-- Every policy gives each operator sources that suit it. -/
theorem accepts_sources (policy : GrowthPolicy) (op : Op) : op.Accepts (policy.sources op) := by
  unfold sources
  cases found : policy.restriction op with
  | some sources => exact policy.accepts op sources found
  | none =>
    refine ⟨by simp, fun pair inside => Or.inl ?_⟩
    exact List.eq_of_mem_replicate (List.of_mem_zip inside).1

end GrowthPolicy

end ProgramSynthesis
