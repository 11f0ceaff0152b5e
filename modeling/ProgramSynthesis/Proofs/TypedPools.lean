import ProgramSynthesis.Proofs.Checking
import ProgramSynthesis.Proofs.Reduction

/-!
# Typed pools under growth and reduction

A policy that is restricted operator by operator gives each operator the sources of its last
restriction. Since every policy in force suits its operators, growth keeps pools well typed, and
reduction only drops candidates; so every pool that a sequence of such steps leads through is
well typed, and growth only ever adds behind the pool that it starts from.
-/

namespace ProgramSynthesis

namespace GrowthPolicy

variable {policy later : GrowthPolicy} {op other : Op} {listed : List OperandSource}
  {restrictions : List (Op × List OperandSource)}

/-- Restrict operators one after the other. -/
def restrictAll (policy : GrowthPolicy) (restrictions : List (Op × List OperandSource)) :
    Except Fault GrowthPolicy :=
  restrictions.foldlM (fun policy restriction => policy.restrict restriction.1 restriction.2) policy

/-- The sources that the last restriction of an operator lists. -/
def lastSources? (restrictions : List (Op × List OperandSource)) (op : Op) :
    Option (List OperandSource) :=
  (restrictions.reverse.find? fun restriction => restriction.1 = op).map Prod.snd

/-- An accepted restriction replaces the sources of its operator and of no other. -/
theorem sources_of_restrict (accepted : policy.restrict op listed = .ok later) (other : Op) :
    later.sources other = if other = op then listed else policy.sources other := by
  rw [restrict] at accepted
  split at accepted
  · split at accepted
    · cases accepted
      simp only [sources]
      by_cases same : other = op
      · simp only [if_pos same, Option.getD_some]
      · simp only [if_neg same]
    · cases accepted
  · cases accepted

/-- A restriction counts for its operator unless a later one does. -/
theorem lastSources?_cons :
    lastSources? ((op, listed) :: restrictions) other =
      (lastSources? restrictions other).or (if other = op then some listed else none) := by
  have single : (List.find? (fun restriction : Op × List OperandSource => restriction.1 = other)
      [(op, listed)]).map Prod.snd = if other = op then some listed else none := by
    by_cases same : other = op
    · simp [same]
    · simp [same, Ne.symm same]
  rw [lastSources?, List.reverse_cons, List.find?_append, Option.map_or, single, lastSources?]

/-- After accepted restrictions an operator has the sources that its last restriction lists, or
those that it had before. -/
theorem sources_of_restrictAll (accepted : policy.restrictAll restrictions = .ok later) (op : Op) :
    later.sources op = (lastSources? restrictions op).getD (policy.sources op) := by
  induction restrictions generalizing policy with
  | nil =>
    cases accepted
    rfl
  | cons restriction restrictions ih =>
    obtain ⟨restricted, listed⟩ := restriction
    rw [restrictAll, List.foldlM_cons] at accepted
    obtain ⟨next, first, rest⟩ := bind_eq_ok_iff.mp accepted
    have replaced := sources_of_restrict first op
    rw [ih rest, lastSources?_cons, replaced]
    cases lastSources? restrictions op with
    | some sources => rfl
    | none => by_cases same : op = restricted <;> simp [same]

/-- The standard restrictions, of which the second takes the place of the first. -/
def relistedProducts : List (Op × List OperandSource) :=
  [(.times, [.pool, .pool]), (.times, [.names, .terminals]), (.lt, [.terminals, .terminals])]

/-- The standard policy is reached from none by restrictions. -/
theorem restrictAll_relistedProducts :
    exhaustive.restrictAll relistedProducts = .ok restricted := by
  refine congrArg Except.ok (ext_restriction fun op => ?_)
  cases op <;> rfl

end GrowthPolicy

/-- What is done to a pool between two moments of a search. -/
inductive PoolStep where
  /-- A round of growth with some operators. -/
  | grow (ops : List Op)
  /-- A reduction against some examples. -/
  | reduce (examples : List Example)

/-- The pool after a step. -/
def PoolStep.apply (grammar : Grammar) (policy : GrowthPolicy) (pool : List Candidate) :
    PoolStep → Except Fault (List Candidate)
  | grow ops => SearchSpace.grow ⟨grammar, policy, ops⟩ pool
  | reduce examples => ProgramSynthesis.reduce pool examples

/-- The pools that steps lead through, from the one they start from to the last. -/
def poolsAlong (grammar : Grammar) (policy : GrowthPolicy) :
    List PoolStep → List Candidate → Except Fault (List (List Candidate))
  | [], pool => .ok [pool]
  | step :: steps, pool => do
    let next ← step.apply grammar policy pool
    return pool :: (← poolsAlong grammar policy steps next)

section

variable {grammar : Grammar} {pool : List Candidate}

/-- A step from a well-typed pool is taken without a fault and keeps the pool well typed; growth
adds behind the pool. -/
theorem PoolStep.exists_apply (policy : GrowthPolicy) (step : PoolStep)
    (typed : grammar.TypedPool pool)
    (bound : ∀ examples, step = .reduce examples → grammar.BoundBy examples) :
    ∃ next, step.apply grammar policy pool = .ok next ∧ grammar.TypedPool next ∧
      ∀ ops, step = .grow ops → pool <+: next := by
  cases step with
  | grow ops =>
    let space : SearchSpace := ⟨grammar, policy, ops⟩
    have grown : space.grow pool = .ok (pool ++ space.additions pool) :=
      SearchSpace.grow_eq typed.declaresHeads
    have kept : grammar.TypedPool (pool ++ space.additions pool) :=
      SearchSpace.typedPool_append_additions typed
    exact ⟨_, grown, kept, fun _ _ => List.prefix_append pool _⟩
  | reduce examples =>
    have reduced := typed.reduce_eq (bound examples rfl)
    exact ⟨_, reduced, typed.firsts, nofun⟩

/-- Steps from a well-typed pool lead through well-typed pools, and each round of growth on the
way adds behind its pool. -/
theorem exists_poolsAlong (policy : GrowthPolicy) (steps : List PoolStep)
    (typed : grammar.TypedPool pool)
    (bound : ∀ examples, .reduce examples ∈ steps → grammar.BoundBy examples) :
    ∃ pools, poolsAlong grammar policy steps pool = .ok pools ∧ pools[0]? = some pool ∧
      (∀ later ∈ pools, grammar.TypedPool later) ∧
      ∀ (index : Nat) (ops : List Op), steps[index]? = some (.grow ops) →
        ∃ old new, pools[index]? = some old ∧ pools[index + 1]? = some new ∧ old <+: new := by
  induction steps generalizing pool with
  | nil =>
    refine ⟨[pool], rfl, rfl, ?_, nofun⟩
    intro later inside
    rwa [List.mem_singleton.mp inside]
  | cons step steps ih =>
    obtain ⟨next, applied, nextTyped, keeps⟩ :=
      PoolStep.exists_apply policy step typed fun examples same =>
        bound examples (same ▸ List.mem_cons_self)
    obtain ⟨pools, along, start, allTyped, growths⟩ := ih nextTyped fun examples inside =>
      bound examples (List.mem_cons_of_mem step inside)
    refine ⟨pool :: pools, ?_, rfl, ?_, ?_⟩
    · rw [poolsAlong, applied, ok_bind, along]
      rfl
    · exact List.forall_mem_cons.mpr ⟨typed, allTyped⟩
    · intro index ops taken
      cases index with
      | zero => exact ⟨pool, next, rfl, start, keeps ops (Option.some.inj taken)⟩
      | succ index => exact growths index ops taken

end

/-- Growth preserves typing under every policy. Let restrictions be accepted one after the other,
from any policy. Then the sources of an operator are those that its last restriction lists, one
for each operand, and other than the pool only for integers. Under that policy, steps of growth,
with any operators, and of reduction, against any examples that bind the declared names, lead from
a pool whose members pass the type check, without a fault, through pools whose members pass it;
and each round of growth keeps the pool it starts from as a prefix. -/
theorem growth_preserves_typing (start policy : GrowthPolicy)
    (restrictions : List (Op × List OperandSource)) (grammar : Grammar) (pool : List Candidate)
    (steps : List PoolStep) (accepted : start.restrictAll restrictions = .ok policy)
    (checked : ∀ candidate ∈ pool, grammar.isWellTyped candidate = .ok true)
    (bound : ∀ examples, .reduce examples ∈ steps → grammar.BoundBy examples) :
    (∀ op, policy.sources op =
        (GrowthPolicy.lastSources? restrictions op).getD (start.sources op) ∧
      op.Accepts (policy.sources op)) ∧
    ∃ pools, poolsAlong grammar policy steps pool = .ok pools ∧
      (∀ later ∈ pools, ∀ candidate ∈ later, grammar.isWellTyped candidate = .ok true) ∧
      ∀ (index : Nat) (ops : List Op), steps[index]? = some (.grow ops) →
        ∃ old new, pools[index]? = some old ∧ pools[index + 1]? = some new ∧ old <+: new := by
  have typed : grammar.TypedPool pool := fun candidate inside =>
    Grammar.isWellTyped_eq_true_iff.mp (checked candidate inside)
  obtain ⟨pools, along, _, allTyped, growths⟩ := exists_poolsAlong policy steps typed bound
  constructor
  · intro op
    exact ⟨GrowthPolicy.sources_of_restrictAll accepted op, policy.accepts_sources op⟩
  · refine ⟨pools, along, fun later passed candidate inside => ?_, growths⟩
    exact Grammar.isWellTyped_eq_true_iff.mpr (allTyped later passed candidate inside)

/-- A round of growth, a reduction against one example, and a round with other operators. -/
def growReduceGrow : List PoolStep :=
  [.grow [.lt, .times], .reduce [⟨.ofList [("x", 5)], .int 0⟩], .grow [.ite, .not]]

/-- A sum that mentions a literal that the grammar does not list, and false. -/
def sumAndFalsity : List Candidate :=
  [.node .plus [.leaf (.var "x"), .leaf (.number 3)], .leaf .falsity]

/-- Growth, reduction and growth from the sum and false under the standard policy. -/
theorem growth_preserves_typing_of_sum :
    GrowthPolicy.exhaustive.restrictAll GrowthPolicy.relistedProducts = .ok .restricted ∧
    (∀ candidate ∈ sumAndFalsity, Grammar.isWellTyped ⟨["x"], [2]⟩ candidate = .ok true) ∧
    (∀ examples, .reduce examples ∈ growReduceGrow →
      Grammar.BoundBy ⟨["x"], [2]⟩ examples) ∧
    (∀ op, GrowthPolicy.restricted.sources op =
        (GrowthPolicy.lastSources? GrowthPolicy.relistedProducts op).getD
          (GrowthPolicy.exhaustive.sources op) ∧
      op.Accepts (GrowthPolicy.restricted.sources op)) ∧
    ∃ pools, poolsAlong ⟨["x"], [2]⟩ .restricted growReduceGrow sumAndFalsity = .ok pools ∧
      (∀ later ∈ pools, ∀ candidate ∈ later,
        Grammar.isWellTyped ⟨["x"], [2]⟩ candidate = .ok true) ∧
      ∀ (index : Nat) (ops : List Op), growReduceGrow[index]? = some (.grow ops) →
        ∃ old new, pools[index]? = some old ∧ pools[index + 1]? = some new ∧ old <+: new := by
  have accepted := GrowthPolicy.restrictAll_relistedProducts
  have checked : ∀ candidate ∈ sumAndFalsity,
      Grammar.isWellTyped ⟨["x"], [2]⟩ candidate = .ok true := by decide
  have bound : ∀ examples, .reduce examples ∈ growReduceGrow →
      Grammar.BoundBy ⟨["x"], [2]⟩ examples := by
    intro examples inside
    have single : examples = [⟨.ofList [("x", 5)], .int 0⟩] := by
      simpa [growReduceGrow] using inside
    rw [single]
    decide
  exact ⟨accepted, checked, bound, growth_preserves_typing .exhaustive .restricted
    GrowthPolicy.relistedProducts ⟨["x"], [2]⟩ sumAndFalsity growReduceGrow accepted checked bound⟩

end ProgramSynthesis
