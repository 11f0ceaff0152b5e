import Mathlib.Data.List.Flatten
import ProgramSynthesis.Proofs.Levels
import ProgramSynthesis.Problem
import ProgramSynthesis.Search.Config

/-!
# Repeated literals and operators

A list is thinned when some later repetitions are removed from it and every first occurrence
keeps its place. Thinned literals and operators make thinned terminals, thinned choices of
operands and thinned additions to a pool. So a round of growth is no larger for them, and what
reduction leaves of it is the same.
-/

namespace ProgramSynthesis

/-- When a list is left after some later repetitions are removed from another. -/
structure Thinned {α : Type} [DecidableEq α] (members thin : List α) : Prop where
  /-- The first occurrences are the same. -/
  same : SameFirsts id members thin
  /-- What is left keeps its order. -/
  sublist : thin.Sublist members

namespace Thinned

variable {α β : Type} [DecidableEq α] [DecidableEq β] {members thin later laters : List α}

/-- Nothing needs to be removed. -/
theorem refl (members : List α) : Thinned members members := ⟨rfl, .refl members⟩

/-- A thinned list is no longer. -/
theorem length_le (thinned : Thinned members thin) : thin.length ≤ members.length :=
  thinned.sublist.length_le

/-- Whatever the key, a thinned list has the same first occurrences. -/
theorem sameFirsts (thinned : Thinned members thin) (key : α → β) :
    SameFirsts key members thin := by
  have mapped : SameFirsts key (members.map id) (thin.map id) :=
    thinned.same.map fun left right alike => congrArg key alike
  rwa [List.map_id, List.map_id] at mapped

/-- What is built from every member of a thinned list is thinned. -/
theorem flatMap (thinned : Thinned members thin) {build rebuild : α → List β}
    (each : ∀ member ∈ members, Thinned (build member) (rebuild member)) :
    Thinned (members.flatMap build) (thin.flatMap rebuild) := by
  have congruent : ∀ left right : α, id left = id right →
      ∀ wanted ∈ (rebuild left).map id, wanted ∈ (rebuild right).map id := by
    rintro left _ rfl wanted built
    exact built
  constructor
  · exact (SameFirsts.flatMap_congr fun member inside => (each member inside).same).trans
      (thinned.same.flatMap congruent)
  · exact (thinned.sublist.flatMap rebuild).trans
      (.flatMap_right members fun member inside => (each member inside).sublist)

/-- The images of a thinned list are thinned. -/
theorem map (thinned : Thinned members thin) (build : α → β) :
    Thinned (members.map build) (thin.map build) := by
  rw [List.map_eq_flatMap, List.map_eq_flatMap]
  exact thinned.flatMap fun member _ => .refl [build member]

/-- A test selects thinned members. -/
theorem filter (thinned : Thinned members thin) (test : α → Bool) :
    Thinned (members.filter test) (thin.filter test) := by
  refine ⟨thinned.same.filter test ?_, thinned.sublist.filter test⟩
  rintro left _ _ _ rfl
  rfl

/-- Thinned lists may be joined. -/
theorem append (thinned : Thinned members thin) (further : Thinned later laters) :
    Thinned (members ++ later) (thin ++ laters) :=
  ⟨thinned.same.append further.same, thinned.sublist.append further.sublist⟩

/-- Choosing from thinned lists makes thinned choices. -/
theorem choices {options offers : List (List α)} (each : List.Forall₂ Thinned options offers) :
    Thinned (ProgramSynthesis.choices options) (ProgramSynthesis.choices offers) := by
  induction each with
  | nil => exact .refl [[]]
  | cons first _ ih => exact first.flatMap fun member _ => ih.map (member :: ·)

/-- The values of a thinned list are thinned, and there are values if there were before. -/
theorem mapM {f : α → Except Fault β} {values : List β} (thinned : Thinned members thin)
    (all : members.mapM f = .ok values) :
    ∃ others, thin.mapM f = .ok others ∧ Thinned values others := by
  have mapped := thinned.map f
  rw [mapM_eq_ok_iff_map_eq.mp all] at mapped
  obtain ⟨others, kept, same⟩ := List.sublist_map_iff.mp mapped.sublist
  refine ⟨others, mapM_eq_ok_iff_map_eq.mpr same, ?_, kept⟩
  have injective : ∀ list : List β, firsts (id ∘ Except.ok (ε := Fault)) [] list =
      firsts id [] list := fun list =>
    firsts_congr fun left _ right _ =>
      ⟨fun alike => Except.ok.inj alike, fun alike => congrArg Except.ok alike⟩
  have first := mapped.same
  rw [same, SameFirsts, firsts_map, firsts_map, injective, injective] at first
  exact map_ok_injective first

end Thinned

/-- Erasing repetitions keeps first occurrences. -/
theorem eraseDups_eq_firsts {α : Type} [DecidableEq α] :
    ∀ members : List α, members.eraseDups = firsts id [] members
  | [] => rfl
  | member :: members => by
    have decided : ∀ left ∈ members, ∀ right ∈ members, id left = id right →
        (!left == member) = !right == member := by
      rintro left _ _ _ rfl
      rfl
    have outer : (firsts id [] members).filter (fun other => id other ∉ [member]) =
        firsts id ([member] ++ []) members := filter_firsts [member]
    have selected : (firsts id [] members).filter (fun other => !other == member) =
        (firsts id [] members).filter fun other => id other ∉ [member] :=
      List.filter_congr fun other _ => by rw [Bool.eq_iff_iff]; simp
    rw [List.eraseDups_cons, eraseDups_eq_firsts, firsts_filter _ decided, selected, outer, firsts,
      if_neg List.not_mem_nil]
    rfl
termination_by members => members.length
decreasing_by exact Nat.lt_succ_of_le (List.length_filter_le _ _)

/-- Erasing repetitions thins a list. -/
theorem thinned_eraseDups {α : Type} [DecidableEq α] (members : List α) :
    Thinned members members.eraseDups := by
  rw [eraseDups_eq_firsts]
  exact ⟨firsts_firsts.symm, firsts_sublist members⟩

/-- When repetitions of literals and operators are removed from a search space. -/
structure SearchSpace.Thins (space thin : SearchSpace) : Prop where
  /-- The variables are the same. -/
  names : thin.grammar.names = space.grammar.names
  /-- Repeated literals are removed. -/
  constants : Thinned space.grammar.constants thin.grammar.constants
  /-- The policy is the same. -/
  policy : thin.policy = space.policy
  /-- Repeated operators are removed. -/
  ops : Thinned space.ops thin.ops

namespace Grammar

variable {grammar thin : Grammar}

/-- Typing depends on the declared names alone. -/
theorem WellTyped.of_names {candidate : Candidate} (names : grammar.names = thin.names)
    (typed : grammar.WellTyped candidate) : thin.WellTyped candidate := by
  induction typed with
  | var declared => exact .var (names ▸ declared)
  | number value => exact .number value
  | falsity => exact .falsity
  | node suited _ ih => exact .node suited ih

/-- Thinned literals make thinned integer terminals. -/
theorem thinned_intTerminals (names : thin.names = grammar.names)
    (constants : Thinned grammar.constants thin.constants) :
    Thinned grammar.intTerminals thin.intTerminals := by
  have declared : thin.variableTerminals = grammar.variableTerminals := by
    rw [variableTerminals, variableTerminals, names]
  rw [intTerminals, intTerminals, declared]
  exact (Thinned.refl _).append (constants.map fun value => Candidate.leaf (.number value))

/-- Thinned literals make thinned terminals. -/
theorem thinned_terminals (names : thin.names = grammar.names)
    (constants : Thinned grammar.constants thin.constants) :
    Thinned grammar.terminals thin.terminals :=
  (thinned_intTerminals names constants).append (.refl [Candidate.leaf .falsity])

end Grammar

namespace SearchSpace.Thins

variable {space thin : SearchSpace} {examples : List Example} {pool others : List Candidate}

/-- A thinned pool is well typed over the thinned grammar. -/
theorem typedPool (thins : space.Thins thin) (thinned : Thinned pool others)
    (typed : space.grammar.TypedPool pool) : thin.grammar.TypedPool others :=
  fun candidate inside =>
    (typed candidate (thinned.sublist.subset inside)).of_names thins.names.symm

/-- A thinned pool offers thinned operands. -/
theorem offers (thins : space.Thins thin) (thinned : Thinned pool others)
    (position : OperandSource × Ty) :
    Thinned (space.offers pool position) (thin.offers others position) := by
  obtain ⟨source, ty⟩ := position
  cases source with
  | pool => exact thinned.filter _
  | names =>
    rw [SearchSpace.offers, SearchSpace.offers, Grammar.variableTerminals,
      Grammar.variableTerminals, thins.names]
    exact .refl _
  | terminals => exact Grammar.thinned_intTerminals thins.names thins.constants

/-- A round from a thinned pool, over thinned operators, appends thinned candidates. -/
theorem additions (thins : space.Thins thin) (thinned : Thinned pool others) :
    Thinned (space.additions pool) (thin.additions others) := by
  refine thins.ops.flatMap fun op _ => ?_
  have chosen : Thinned (choices ((space.positions op).map (space.offers pool)))
      (choices ((thin.positions op).map (thin.offers others))) := by
    apply Thinned.choices
    rw [SearchSpace.positions, SearchSpace.positions, thins.policy, List.forall₂_map_left_iff,
      List.forall₂_map_right_iff, List.forall₂_same]
    exact fun position _ => thins.offers thinned position
  exact chosen.map (Candidate.node op)

/-- A round from a thinned pool is no larger. -/
theorem roundSize_le (thins : space.Thins thin) (thinned : Thinned pool others) :
    thin.roundSize others ≤ space.roundSize pool := by
  have fewer := thinned.length_le
  have less := (thins.additions thinned).length_le
  rw [roundSize, roundSize]
  omega

/-- The next level of a thinned pool is the same. -/
theorem advance_eq (thins : space.Thins thin) (thinned : Thinned pool others) :
    thin.advance examples others = space.advance examples pool :=
  ((thinned.append (thins.additions thinned)).sameFirsts (·.behaviour examples)).symm

end SearchSpace.Thins

/-- The grammar with every literal listed once. -/
def Grammar.distinct (grammar : Grammar) : Grammar :=
  { grammar with constants := grammar.constants.eraseDups }

/-- The settings with every operator listed once. -/
def SearchConfig.distinct (config : SearchConfig) : SearchConfig :=
  { config with ops := config.ops.eraseDups, separatorOps := config.separatorOps.eraseDups }

/-- The problem with every literal listed once. -/
def Problem.distinct (problem : Problem) : Problem where
  grammar := problem.grammar.distinct
  examples := problem.examples
  examples_ne_nil := problem.examples_ne_nil
  terminals := by
    rintro ⟨names, constants⟩
    refine problem.terminals ⟨names, List.eq_nil_iff_forall_not_mem.mpr fun value inside => ?_⟩
    have kept : value ∈ problem.grammar.distinct.constants := List.mem_eraseDups.mpr inside
    rw [constants] at kept
    cases kept
  nodup := problem.nodup
  binds := problem.binds

namespace SearchConfig

/-- Whole programs are searched for with repetitions removed. -/
theorem thins_space (config : SearchConfig) (grammar : Grammar) :
    (config.space grammar).Thins (config.distinct.space grammar.distinct) :=
  ⟨rfl, thinned_eraseDups _, rfl, thinned_eraseDups _⟩

/-- Conditions are searched for with repetitions removed. -/
theorem thins_separatorSpace (config : SearchConfig) (grammar : Grammar) :
    (config.separatorSpace grammar).Thins (config.distinct.separatorSpace grammar.distinct) :=
  ⟨rfl, thinned_eraseDups _, rfl, thinned_eraseDups _⟩

end SearchConfig

end ProgramSynthesis
