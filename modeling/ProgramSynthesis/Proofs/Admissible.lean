import ProgramSynthesis.Proofs.Pruning

/-!
# What growth can reach

A candidate is admissible in a search space when it is well typed, mentions only what the
grammar declares and the space offers, and respects the operand sources of the policy. As many
rounds of plain growth as a candidate is high reach it, and they reach nothing else.
-/

namespace ProgramSynthesis

namespace Candidate

mutual

/-- The height of a candidate: a terminal has none, a node is one higher than its operands. -/
def height : Candidate → Nat
  | leaf _ => 0
  | node _ operands => operandsHeight operands + 1
termination_by structural candidate => candidate

/-- The height of the highest operand. -/
def operandsHeight : List Candidate → Nat
  | [] => 0
  | operand :: operands => max operand.height (operandsHeight operands)
termination_by structural operands => operands

end

/-- Operands stay below a height when each of them does. -/
theorem operandsHeight_le_iff {operands : List Candidate} {bound : Nat} :
    operandsHeight operands ≤ bound ↔ ∀ operand ∈ operands, operand.height ≤ bound := by
  induction operands with
  | nil => simp [operandsHeight]
  | cons operand operands ih => rw [operandsHeight, Nat.max_le, ih, List.forall_mem_cons]

/-- A node is at most one higher than its operands may be. -/
theorem height_node_le_succ_iff {op : Op} {operands : List Candidate} {bound : Nat} :
    (node op operands).height ≤ bound + 1 ↔ ∀ operand ∈ operands, operand.height ≤ bound := by
  rw [height, Nat.add_le_add_iff_right, operandsHeight_le_iff]

end Candidate

/-- Whether a source lets a candidate stand at its position. -/
def OperandSource.Allows : OperandSource → Candidate → Prop
  | pool, _ => True
  | names, operand => ∃ name, operand = .leaf (.var name)
  | terminals, operand =>
    (∃ name, operand = .leaf (.var name)) ∨ ∃ value, operand = .leaf (.number value)

/-- The programs of a search space: terminals of the grammar, and offered operators over
programs of the types of the signature, each allowed by the source of its position. -/
inductive SearchSpace.Admissible (space : SearchSpace) : Candidate → Prop where
  /-- A declared variable. -/
  | var {name : String} (declared : name ∈ space.grammar.names) :
    Admissible space (.leaf (.var name))
  /-- A listed literal. -/
  | number {value : Int64} (listed : value ∈ space.grammar.constants) :
    Admissible space (.leaf (.number value))
  /-- The constant. -/
  | falsity : Admissible space (.leaf .falsity)
  /-- An offered operator over admissible operands of the types of its signature, each allowed by
  its source. -/
  | node {op : Op} {operands : List Candidate} (offered : op ∈ space.ops)
    (suited : operands.map Candidate.ty = op.signature.args)
    (allowed : List.Forall₂ OperandSource.Allows (space.policy.sources op) operands)
    (each : ∀ operand ∈ operands, Admissible space operand) :
    Admissible space (.node op operands)

namespace SearchSpace

variable {space : SearchSpace} {candidate operand : Candidate} {op : Op}

/-- The candidates of no height are the terminals. -/
theorem mem_terminals_iff :
    candidate ∈ space.grammar.terminals ↔ space.Admissible candidate ∧ candidate.height ≤ 0 := by
  rw [Grammar.terminals, List.mem_append, Grammar.mem_intTerminals_iff, List.mem_singleton]
  constructor
  · rintro ((⟨name, declared, rfl⟩ | ⟨value, listed, rfl⟩) | rfl)
    · exact ⟨.var declared, Nat.le_refl 0⟩
    · exact ⟨.number listed, Nat.le_refl 0⟩
    · exact ⟨.falsity, Nat.le_refl 0⟩
  · rintro ⟨admitted, low⟩
    cases admitted with
    | var declared => exact .inl (.inl ⟨_, declared, rfl⟩)
    | number listed => exact .inl (.inr ⟨_, listed, rfl⟩)
    | falsity => exact .inr rfl
    | node offered suited allowed each => exact absurd low (Nat.not_succ_le_zero _)

/-- A pool of all admissible candidates up to a height offers, for a position, those that have
the position's type and are allowed by its source. -/
theorem mem_offers_iff {pool : List Candidate} {bound : Nat} {position : OperandSource × Ty}
    (complete : ∀ candidate, candidate ∈ pool ↔
      space.Admissible candidate ∧ candidate.height ≤ bound)
    (known : position ∈ space.positions op) :
    operand ∈ space.offers pool position ↔
      (space.Admissible operand ∧ operand.height ≤ bound) ∧
        position.1.Allows operand ∧ operand.ty = position.2 := by
  have suits := suits_of_mem_positions known
  obtain ⟨source, ty⟩ := position
  cases source with
  | pool => simp [offers, complete, OperandSource.Allows]
  | names =>
    obtain rfl : ty = .int := suits.resolve_left nofun
    rw [offers, Grammar.mem_variableTerminals_iff]
    constructor
    · rintro ⟨name, declared, rfl⟩
      exact ⟨⟨.var declared, Nat.zero_le _⟩, ⟨name, rfl⟩, rfl⟩
    · rintro ⟨⟨admitted, _⟩, ⟨name, rfl⟩, _⟩
      cases admitted with
      | var declared => exact ⟨name, declared, rfl⟩
  | terminals =>
    obtain rfl : ty = .int := suits.resolve_left nofun
    rw [offers, Grammar.mem_intTerminals_iff]
    constructor
    · rintro (⟨name, declared, rfl⟩ | ⟨value, listed, rfl⟩)
      · exact ⟨⟨.var declared, Nat.zero_le _⟩, .inl ⟨name, rfl⟩, rfl⟩
      · exact ⟨⟨.number listed, Nat.zero_le _⟩, .inr ⟨value, rfl⟩, rfl⟩
    · rintro ⟨⟨admitted, _⟩, ⟨name, rfl⟩ | ⟨value, rfl⟩, _⟩
      · cases admitted with
        | var declared => exact .inl ⟨name, declared, rfl⟩
      · cases admitted with
        | number listed => exact .inr ⟨value, listed, rfl⟩

/-- Two conditions on the members of a list, one for each of two lists walked along with it. -/
theorem forall₂_zip_iff {α β γ : Type} {first : β → α → Prop} {second : α → γ → Prop}
    {members : List α} {lefts : List β} {rights : List γ} (same : lefts.length = rights.length) :
    List.Forall₂ (fun member pair => first pair.1 member ∧ second member pair.2) members
        (lefts.zip rights) ↔
      List.Forall₂ first lefts members ∧ List.Forall₂ second members rights := by
  induction members generalizing lefts rights with
  | nil =>
    cases lefts with
    | nil => simp [List.length_eq_zero_iff.mp same.symm]
    | cons left lefts =>
      obtain ⟨right, rights, rfl⟩ := List.exists_cons_of_length_eq_add_one same.symm
      simp
  | cons member members ih =>
    cases lefts with
    | nil => simp
    | cons left lefts =>
      obtain ⟨right, rights, rfl⟩ := List.exists_cons_of_length_eq_add_one same.symm
      simp only [List.zip_cons_cons, List.forall₂_cons, ih (Nat.succ.inj same)]
      tauto

/-- What is built from a pool of all admissible candidates up to a height are the admissible
nodes one higher. -/
theorem mem_built_of_complete_iff {pool : List Candidate} {bound : Nat} {op : Op}
    (complete : ∀ candidate, candidate ∈ pool ↔
      space.Admissible candidate ∧ candidate.height ≤ bound) :
    candidate ∈ space.built pool op ↔ ∃ operands, candidate = .node op operands ∧
      (∀ operand ∈ operands, space.Admissible operand ∧ operand.height ≤ bound) ∧
      List.Forall₂ OperandSource.Allows (space.policy.sources op) operands ∧
      operands.map Candidate.ty = op.signature.args := by
  have counted : (space.policy.sources op).length = op.signature.args.length :=
    (space.policy.accepts_sources op).1
  rw [mem_built_iff]
  refine exists_congr fun operands => and_congr_right fun _ => ?_
  rw [← List.forall₂_eq_eq_eq, List.forall₂_map_left_iff, ← forall₂_zip_iff counted,
    ← List.forall₂_and_left]
  exact forall₂_congr_of_zip fun operand position facing =>
    mem_offers_iff complete (List.of_mem_zip facing).2

/-- Plain growth reaches exactly the admissible candidates. After a number of rounds from the
terminals the pool consists of the admissible candidates of at most that height. -/
theorem mem_iterate_expand_iff {rounds : Nat} :
    candidate ∈ space.expand^[rounds] space.grammar.terminals ↔
      space.Admissible candidate ∧ candidate.height ≤ rounds := by
  induction rounds generalizing candidate with
  | zero => exact mem_terminals_iff
  | succ rounds ih =>
    rw [Function.iterate_succ_apply', expand, List.mem_append, ih, additions, List.mem_flatMap]
    constructor
    · rintro (⟨admitted, low⟩ | ⟨op, offered, built⟩)
      · exact ⟨admitted, Nat.le_succ_of_le low⟩
      · obtain ⟨operands, rfl, each, allowed, suited⟩ :=
          (mem_built_of_complete_iff fun _ => ih).mp built
        refine ⟨.node offered suited allowed fun operand inside => (each operand inside).1, ?_⟩
        exact Candidate.height_node_le_succ_iff.mpr fun operand inside => (each operand inside).2
    · rintro ⟨admitted, low⟩
      cases admitted with
      | var declared => exact .inl ⟨.var declared, Nat.zero_le _⟩
      | number listed => exact .inl ⟨.number listed, Nat.zero_le _⟩
      | falsity => exact .inl ⟨.falsity, Nat.zero_le _⟩
      | @node op operands offered suited allowed each =>
        have below := Candidate.height_node_le_succ_iff.mp low
        refine .inr ⟨op, offered, (mem_built_of_complete_iff fun _ => ih).mpr ?_⟩
        exact ⟨operands, rfl, fun operand inside => ⟨each operand inside, below operand inside⟩,
          allowed, suited⟩

/-- A larger pool offers no less for a position. -/
theorem offers_subset {pool plain : List Candidate} (within : pool ⊆ plain)
    (position : OperandSource × Ty) : space.offers pool position ⊆ space.offers plain position := by
  obtain ⟨source, ty⟩ := position
  cases source with
  | pool =>
    intro operand offered
    obtain ⟨member, suited⟩ := List.mem_filter.mp offered
    exact List.mem_filter.mpr ⟨within member, suited⟩
  | names => exact List.Subset.refl _
  | terminals => exact List.Subset.refl _

/-- A larger pool grows into a larger pool. -/
theorem expand_subset {pool plain : List Candidate} (within : pool ⊆ plain) :
    space.expand pool ⊆ space.expand plain := by
  intro candidate inside
  rcases List.mem_append.mp inside with old | new
  · exact List.mem_append_left _ (within old)
  · obtain ⟨op, offered, built⟩ := List.mem_flatMap.mp new
    obtain ⟨operands, rfl, each⟩ := mem_built_iff.mp built
    have chosen := mem_built_iff.mpr ⟨operands, rfl, each.imp fun operand position inside =>
      offers_subset within position inside⟩
    exact List.mem_append_right _ (List.mem_flatMap.mpr ⟨op, offered, chosen⟩)

variable {examples : List Example} {poolLimit rounds : Nat} {pool plain : List Candidate}

/-- A level keeps only what plain growth reaches. -/
theorem advance_subset (within : pool ⊆ plain) :
    space.advance examples pool ⊆ space.expand plain := fun _ inside =>
  expand_subset within ((firsts_sublist _).subset inside)

/-- Levels keep only what as many rounds of plain growth reach. -/
theorem climb_subset {top : List Candidate} (within : pool ⊆ plain)
    (climbed : space.climb examples poolLimit rounds pool = some top) :
    top ⊆ space.expand^[rounds] plain := by
  induction rounds generalizing pool plain with
  | zero => exact Option.some.inj climbed ▸ within
  | succ rounds ih =>
    obtain ⟨_, climbed⟩ := climb_succ_eq_some_iff.mp climbed
    rw [Function.iterate_succ_apply]
    exact ih (advance_subset within) climbed

/-- What is explored is reached by plain growth within as many rounds. -/
theorem mem_of_explore {found : Candidate} (within : pool ⊆ plain)
    (explored : (space.explore examples poolLimit rounds pool).1 = some found) :
    ∃ level ≤ rounds, found ∈ space.expand^[level] plain := by
  induction rounds generalizing pool plain with
  | zero => cases explored
  | succ rounds ih =>
    have advanced : space.advance examples pool ⊆ space.expand plain := advance_subset within
    rw [explore] at explored
    split at explored
    · split at explored
      · rename_i candidate first
        cases explored
        exact ⟨1, by omega, advanced (List.mem_of_find?_eq_some first)⟩
      · obtain ⟨level, low, inside⟩ := ih advanced explored
        exact ⟨level + 1, by omega, inside⟩
    · cases explored

/-- What is explored from the terminals is admissible and no higher than the rounds. -/
theorem admissible_of_explore {found : Candidate}
    (explored : (space.explore examples poolLimit rounds space.grammar.terminals).1 =
      some found) : space.Admissible found ∧ found.height ≤ rounds := by
  obtain ⟨level, low, inside⟩ := mem_of_explore (List.Subset.refl _) explored
  obtain ⟨admitted, height⟩ := mem_iterate_expand_iff.mp inside
  exact ⟨admitted, Nat.le_trans height low⟩

/-- What levels from the terminals keep is admissible and no higher than the rounds. -/
theorem admissible_of_climb {top : List Candidate} {candidate : Candidate}
    (climbed : space.climb examples poolLimit rounds space.grammar.terminals = some top)
    (inside : candidate ∈ top) : space.Admissible candidate ∧ candidate.height ≤ rounds :=
  mem_iterate_expand_iff.mp (climb_subset (List.Subset.refl _) climbed inside)

/-- Admissible candidates are well typed. -/
theorem Admissible.wellTyped (admitted : space.Admissible candidate) :
    space.grammar.WellTyped candidate := by
  induction admitted with
  | var declared => exact .var declared
  | number listed => exact .number _
  | falsity => exact .falsity
  | node _ suited _ _ ih => exact .node suited ih

end SearchSpace

end ProgramSynthesis
