import Mathlib.Algebra.BigOperators.Group.List.Basic
import Mathlib.Algebra.Order.Group.Nat
import Mathlib.Algebra.Ring.Nat
import Mathlib.Data.List.Forall2
import ProgramSynthesis.Growth.Basic
import ProgramSynthesis.Proofs.Typing

/-!
# Growth of pools

On a pool whose variables are declared no step of a round of growth faults. `additions` is what
the round appends, as a plain list, and `grow_eq` says that it appends exactly that.
`growthSize_eq` says that counting ahead of the round, saturating after every product and sum,
gives the number of additions saturated once. From a pool of well-typed candidates the additions
are well typed: what keeps them so is the policy invariant, that only integer operands are sent
to the terminals.
-/

namespace ProgramSynthesis

/-- A choice takes one member of each list. -/
theorem mem_choices_iff {α : Type} {options : List (List α)} {choice : List α} :
    choice ∈ choices options ↔ List.Forall₂ (· ∈ ·) choice options := by
  induction options generalizing choice with
  | nil => simp [choices]
  | cons option options ih =>
    rw [choices, List.mem_flatMap]
    constructor
    · rintro ⟨first, inside, built⟩
      obtain ⟨tail, chosen, rfl⟩ := List.mem_map.mp built
      exact .cons inside (ih.mp chosen)
    · intro each
      cases each with
      | cons inside later => exact ⟨_, inside, List.mem_map_of_mem (ih.mpr later)⟩

/-- There are as many choices as the product of the numbers of options. -/
theorem length_choices {α : Type} (options : List (List α)) :
    (choices options).length = (options.map List.length).prod := by
  induction options with
  | nil => rfl
  | cons option options ih =>
    rw [choices, List.length_flatMap, List.map_cons, List.prod_cons, ← ih]
    simp only [List.length_map, List.map_const', List.sum_replicate_nat]

/-- Saturating a factor and then the product is saturating the product. -/
theorem min_mul_min (factor size cap : Nat) :
    min (min factor cap * size) cap = min (factor * size) cap := by
  rcases Nat.le_total factor cap with small | large
  · rw [Nat.min_eq_left small]
  · rw [Nat.min_eq_right large]
    rcases Nat.eq_zero_or_pos size with rfl | positive
    · rw [Nat.mul_zero, Nat.mul_zero]
    · have whole : cap ≤ cap * size := Nat.le_mul_of_pos_right cap positive
      have larger : cap * size ≤ factor * size := Nat.mul_le_mul_right size large
      omega

/-- A product saturated after every factor is the product saturated once. -/
theorem foldl_min_mul (options : List (List Candidate)) (start cap : Nat) :
    options.foldl (fun product option => min (product * option.length) cap) (min start cap) =
      min (start * (options.map List.length).prod) cap := by
  induction options generalizing start with
  | nil => simp
  | cons option options ih =>
    rw [List.foldl_cons, min_mul_min, ih, List.map_cons, List.prod_cons, Nat.mul_assoc]

/-- A sum of saturated terms, saturated after every term, is the sum saturated once. -/
theorem foldl_min_add (sizes : List Nat) (start cap : Nat) :
    (sizes.map (min · cap)).foldl (fun sum size => min (sum + size) cap) (min start cap) =
      min (start + sizes.sum) cap := by
  induction sizes generalizing start with
  | nil => simp
  | cons size sizes ih =>
    have step : min (min start cap + min size cap) cap = min (start + size) cap := by omega
    rw [List.map_cons, List.foldl_cons, step, ih, List.sum_cons, Nat.add_assoc]

/-- Whether every member of a pool is well typed. -/
def Grammar.TypedPool (grammar : Grammar) (pool : List Candidate) : Prop :=
  ∀ candidate ∈ pool, grammar.WellTyped candidate

/-- Whether every member of a pool that is a variable is declared. Growth reads the types of
operands off their heads, so what stands below the heads does not matter to it. -/
def Grammar.DeclaresHeads (grammar : Grammar) (pool : List Candidate) : Prop :=
  ∀ name, Candidate.leaf (.var name) ∈ pool → name ∈ grammar.names

namespace Grammar

variable {grammar : Grammar} {pool : List Candidate}

/-- The variables in a well-typed pool are declared. -/
theorem TypedPool.declaresHeads (typed : grammar.TypedPool pool) :
    grammar.DeclaresHeads pool := by
  intro name inside
  cases typed _ inside with
  | var declared => exact declared

/-- A variable terminal is a declared variable. -/
theorem mem_variableTerminals_iff {candidate : Candidate} :
    candidate ∈ grammar.variableTerminals ↔
      ∃ name ∈ grammar.names, candidate = .leaf (.var name) := by
  simp only [variableTerminals, List.mem_map, eq_comm]

/-- An integer terminal is a declared variable or a literal. -/
theorem mem_intTerminals_iff {candidate : Candidate} :
    candidate ∈ grammar.intTerminals ↔ (∃ name ∈ grammar.names, candidate = .leaf (.var name)) ∨
      ∃ value ∈ grammar.constants, candidate = .leaf (.number value) := by
  simp only [intTerminals, List.mem_append, mem_variableTerminals_iff, constantTerminals,
    List.mem_map, eq_comm]

/-- Integer terminals are well-typed integers. -/
theorem wellTyped_of_mem_intTerminals {candidate : Candidate}
    (inside : candidate ∈ grammar.intTerminals) :
    grammar.WellTyped candidate ∧ candidate.ty = .int := by
  rcases mem_intTerminals_iff.mp inside with ⟨name, declared, rfl⟩ | ⟨value, _, rfl⟩
  · exact ⟨.var declared, rfl⟩
  · exact ⟨.number value, rfl⟩

/-- Growth starts from well-typed candidates. -/
theorem typedPool_terminals (grammar : Grammar) : grammar.TypedPool grammar.terminals := by
  intro candidate inside
  rcases List.mem_append.mp inside with integer | falsity
  · exact (wellTyped_of_mem_intTerminals integer).1
  · rw [List.mem_singleton.mp falsity]
    exact .falsity

/-- The members of a type are found by their heads. -/
theorem ofType_eq (declared : grammar.DeclaresHeads pool) (ty : Ty) :
    grammar.ofType ty pool = .ok (pool.filter fun candidate => candidate.ty = ty) := by
  apply filterM_eq_ok_filter
  intro candidate inside
  have promised : grammar.resultType candidate = .ok candidate.ty := by
    refine resultType_eq_ok_iff.mpr ⟨?_, rfl⟩
    rintro name rfl
    exact declared name inside
  rw [promised]
  rfl

end Grammar

namespace SearchSpace

variable {space : SearchSpace} {pool : List Candidate} {op : Op}

/-- The source and the type of each operand of an operator. -/
def positions (space : SearchSpace) (op : Op) : List (OperandSource × Ty) :=
  (space.policy.sources op).zip op.signature.args

/-- What a pool offers for one operand position. -/
def offers (space : SearchSpace) (pool : List Candidate) :
    OperandSource × Ty → List Candidate
  | (.pool, ty) => pool.filter fun candidate => candidate.ty = ty
  | (.names, _) => space.grammar.variableTerminals
  | (.terminals, _) => space.grammar.intTerminals

/-- The applications of one operator to what a pool offers. -/
def built (space : SearchSpace) (pool : List Candidate) (op : Op) : List Candidate :=
  (choices ((space.positions op).map (space.offers pool))).map (.node op)

/-- What one round of growth appends to a pool. -/
def additions (space : SearchSpace) (pool : List Candidate) : List Candidate :=
  space.ops.flatMap (space.built pool)

/-- The positions of an operator are typed by its signature. -/
theorem map_snd_positions (space : SearchSpace) (op : Op) :
    (space.positions op).map Prod.snd = op.signature.args := by
  rw [positions, List.map_snd_zip]
  exact (space.policy.accepts_sources op).1.symm.le

/-- A position that does not draw from the pool holds an integer. -/
theorem suits_of_mem_positions {position : OperandSource × Ty}
    (inside : position ∈ space.positions op) : position.1.Suits position.2 :=
  (space.policy.accepts_sources op).2 position inside

/-- What a well-typed pool offers for a position is well typed and of the position's type. -/
theorem wellTyped_of_mem_offers (typed : space.grammar.TypedPool pool)
    {position : OperandSource × Ty} (known : position ∈ space.positions op)
    {candidate : Candidate} (inside : candidate ∈ space.offers pool position) :
    space.grammar.WellTyped candidate ∧ candidate.ty = position.2 := by
  obtain ⟨source, ty⟩ := position
  have suits := suits_of_mem_positions known
  cases source with
  | pool =>
    obtain ⟨member, chosen⟩ := List.mem_filter.mp inside
    exact ⟨typed candidate member, of_decide_eq_true chosen⟩
  | names =>
    have integer : ty = .int := suits.resolve_left nofun
    rw [integer]
    exact Grammar.wellTyped_of_mem_intTerminals (List.mem_append_left _ inside)
  | terminals =>
    have integer : ty = .int := suits.resolve_left nofun
    rw [integer]
    exact Grammar.wellTyped_of_mem_intTerminals inside

/-- A choice of operands from a well-typed pool has the types of the signature. -/
theorem typed_of_mem_choices (typed : space.grammar.TypedPool pool) {operands : List Candidate}
    (chosen : operands ∈ choices ((space.positions op).map (space.offers pool))) :
    operands.map Candidate.ty = op.signature.args ∧
      ∀ operand ∈ operands, space.grammar.WellTyped operand := by
  rw [mem_choices_iff, List.forall₂_map_right_iff] at chosen
  have each : List.Forall₂ (fun operand position => space.grammar.WellTyped operand ∧
      operand.ty = position.2) operands (space.positions op) := by
    rw [List.forall₂_iff_zip] at chosen ⊢
    exact ⟨chosen.1, fun inside =>
      wellTyped_of_mem_offers typed (List.of_mem_zip inside).2 (chosen.2 inside)⟩
  constructor
  · rw [← map_snd_positions space op, ← List.forall₂_eq_eq_eq, List.forall₂_map_left_iff,
      List.forall₂_map_right_iff]
    exact each.imp fun _ _ => And.right
  · exact ((List.forall₂_and_left _ _).mp each).1

/-- A choice of operands fills the signature of the operator. -/
theorem length_of_mem_choices {operands : List Candidate}
    (chosen : operands ∈ choices ((space.positions op).map (space.offers pool))) :
    operands.length = op.arity := by
  have counted : operands.length = (space.positions op).length := by
    rw [(mem_choices_iff.mp chosen).length_eq, List.length_map]
  rw [counted, ← List.length_map Prod.snd, map_snd_positions]
  rfl

/-- An application is built over a choice of operands. -/
theorem mem_built_iff {candidate : Candidate} : candidate ∈ space.built pool op ↔
    ∃ operands, candidate = .node op operands ∧ List.Forall₂
      (fun operand position => operand ∈ space.offers pool position) operands
        (space.positions op) := by
  simp only [built, List.mem_map, mem_choices_iff, List.forall₂_map_right_iff, and_comm, eq_comm]

/-- A round appends well-typed candidates. -/
theorem typedPool_additions (typed : space.grammar.TypedPool pool) :
    space.grammar.TypedPool (space.additions pool) := by
  intro candidate inside
  obtain ⟨op, _, built⟩ := List.mem_flatMap.mp inside
  obtain ⟨operands, chosen, rfl⟩ := List.mem_map.mp built
  obtain ⟨suited, each⟩ := typed_of_mem_choices typed chosen
  exact .node suited each

/-- A round keeps a pool well typed. -/
theorem typedPool_append_additions (typed : space.grammar.TypedPool pool) :
    space.grammar.TypedPool (pool ++ space.additions pool) := by
  intro candidate inside
  rcases List.mem_append.mp inside with old | new
  · exact typed candidate old
  · exact typedPool_additions typed candidate new

/-- The operands of an operator are what the pool offers for its positions. -/
theorem operands_eq (declared : space.grammar.DeclaresHeads pool) (op : Op) :
    space.operands pool op = .ok ((space.positions op).map (space.offers pool)) := by
  apply mapM_eq_ok_map
  rintro ⟨source, ty⟩ _
  cases source with
  | pool => exact Grammar.ofType_eq declared ty
  | names => rfl
  | terminals => rfl

/-- Every choice of operands fills the signature. -/
theorem applications_eq (declared : space.grammar.DeclaresHeads pool) (op : Op) :
    space.applications pool op = .ok (space.built pool op) := by
  rw [applications, operands_eq declared, ok_bind]
  apply mapM_eq_ok_map
  intro operands chosen
  rw [Candidate.apply_eq_ok_iff]
  exact ⟨length_of_mem_choices chosen, rfl⟩

/-- A round of growth appends the additions. -/
theorem grow_eq (declared : space.grammar.DeclaresHeads pool) :
    space.grow pool = .ok (pool ++ space.additions pool) := by
  rw [grow, mapM_eq_ok_map fun op _ => applications_eq declared op, ok_bind, additions,
    List.flatMap_def]
  rfl

/-- The choices of one operator are counted up to the largest word. -/
theorem growthOf_eq (declared : space.grammar.DeclaresHeads pool) (op : Op) :
    space.growthOf pool op = .ok (min (space.built pool op).length maxCount) := by
  have counted := foldl_min_mul ((space.positions op).map (space.offers pool)) 1 maxCount
  rw [growthOf, operands_eq declared, ok_bind, pure_eq_ok, built, List.length_map, length_choices,
    ← Nat.one_mul (List.prod _), ← counted]
  rfl

/-- The additions of a round are counted up to the largest word. -/
theorem growthSize_eq (declared : space.grammar.DeclaresHeads pool) :
    space.growthSize pool = .ok (min (space.additions pool).length maxCount) := by
  have counted := foldl_min_add (space.ops.map fun op => (space.built pool op).length) 0 maxCount
  rw [growthSize, mapM_eq_ok_map fun op _ => growthOf_eq declared op, ok_bind, pure_eq_ok,
    additions, List.length_flatMap, ← Nat.zero_add (List.sum _), ← counted, List.map_map]
  rfl

end SearchSpace

end ProgramSynthesis
