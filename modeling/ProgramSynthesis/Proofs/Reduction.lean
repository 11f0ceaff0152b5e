import ProgramSynthesis.Proofs.Behaviour
import ProgramSynthesis.Proofs.FirstOccurrences
import ProgramSynthesis.Proofs.Growth
import ProgramSynthesis.Reduction

/-!
# Reduction keeps first occurrences

The hash set of a reduction holds exactly the output vectors met so far, so a reduction keeps
the first occurrence of each behaviour. Pools with the same first occurrences grow into pools
with the same first occurrences: the key of an application is decided by the keys of its
operands, and the type of a well-typed candidate by its key.
-/

namespace ProgramSynthesis

variable {examples : List Example} {pool other : List Candidate}

/-- One pass keeps, after what is kept already, the first occurrences among the vectors that
are not in the set. -/
theorem reduceFrom_eq {seen : Std.HashSet (List Value)} {kept : List Candidate}
    {keys : List (Except Fault (List (Except Fault Value)))}
    (known : ∀ vector, vector ∈ seen ↔ .ok (vector.map .ok) ∈ keys)
    (evaluates : ∀ candidate ∈ pool, ∃ vector, candidate.outputs examples = .ok vector) :
    reduceFrom examples seen kept pool =
      .ok (kept.reverse ++ firsts (·.behaviour examples) keys pool) := by
  induction pool generalizing seen kept keys with
  | nil => simp [reduceFrom, firsts]
  | cons candidate pool ih =>
    obtain ⟨vector, returned⟩ := evaluates candidate List.mem_cons_self
    have tail := fun later inside => evaluates later (List.mem_cons_of_mem candidate inside)
    have behaves := Candidate.outputs_eq_ok_iff.mp returned
    have met : seen.containsThenInsert vector = (seen.contains vector, seen.insert vector) :=
      Prod.ext Std.HashSet.containsThenInsert_fst Std.HashSet.containsThenInsert_snd
    have inserted : ∀ later, later ∈ seen.insert vector ↔
        .ok (later.map .ok) ∈ candidate.behaviour examples :: keys := by
      intro later
      rw [Std.HashSet.mem_insert, List.mem_cons, known, behaves, Except.ok.injEq,
        map_ok_injective.eq_iff, beq_iff_eq, eq_comm]
    rw [reduceFrom, returned, ok_bind, met, firsts]
    by_cases old : vector ∈ seen
    · rw [Std.HashSet.contains_iff_mem.mpr old, if_pos (behaves ▸ (known vector).mp old)]
      apply ih _ tail
      intro later
      rw [inserted, List.mem_cons]
      refine ⟨fun found => found.elim (fun same => ?_) id, Or.inr⟩
      rw [same, behaves]
      exact (known vector).mp old
    · have new : seen.contains vector = false := by
        rwa [← Bool.not_eq_true, Std.HashSet.contains_iff_mem]
      rw [new, if_neg fun again => old ((known vector).mpr (behaves ▸ again))]
      simp only
      rw [ih inserted tail, List.reverse_cons, List.append_assoc, List.singleton_append]

/-- Reduction keeps the first candidate of each behaviour, in pool order. -/
theorem reduce_eq
    (evaluates : ∀ candidate ∈ pool, ∃ vector, candidate.outputs examples = .ok vector) :
    reduce pool examples = .ok (firsts (·.behaviour examples) [] pool) := by
  have unseen : ∀ vector : List Value, vector ∈ (∅ : Std.HashSet (List Value)) ↔
      Except.ok (ε := Fault) (vector.map (Except.ok (ε := Fault))) ∈ [] := by simp
  rw [reduce, reduceFrom_eq unseen evaluates, List.reverse_nil, List.nil_append]

/-- A well-typed pool is reduced to its first occurrences. -/
theorem Grammar.TypedPool.reduce_eq {grammar : Grammar} (typed : grammar.TypedPool pool)
    (bound : grammar.BoundBy examples) :
    reduce pool examples = .ok (firsts (·.behaviour examples) [] pool) := by
  apply ProgramSynthesis.reduce_eq
  intro candidate inside
  obtain ⟨vector, returned, _⟩ := (typed candidate inside).outputs bound
  exact ⟨vector, returned⟩

/-- What is left of a well-typed pool is well typed. -/
theorem Grammar.TypedPool.firsts {grammar : Grammar} (typed : grammar.TypedPool pool) :
    grammar.TypedPool (firsts (·.behaviour examples) [] pool) := fun candidate inside =>
  typed candidate ((firsts_sublist pool).subset inside)

namespace SearchSpace

variable {space : SearchSpace}

/-- Pools with the same first occurrences offer operands with the same first occurrences. -/
theorem sameFirsts_offers (same : SameFirsts (·.behaviour examples) pool other)
    (typed : space.grammar.TypedPool pool) (otherTyped : space.grammar.TypedPool other)
    (bound : space.grammar.BoundBy examples) (nonempty : examples ≠ [])
    (position : OperandSource × Ty) :
    SameFirsts (·.behaviour examples) (space.offers pool position)
      (space.offers other position) := by
  obtain ⟨source, ty⟩ := position
  cases source with
  | pool =>
    have both : space.grammar.TypedPool (pool ++ other) := fun candidate inside =>
      (List.mem_append.mp inside).elim (typed candidate) (otherTyped candidate)
    apply same.filter
    intro left inside right within alike
    rw [(both left inside).ty_eq (both right within) bound nonempty alike]
  | names => exact rfl
  | terminals => exact rfl

/-- Pools with the same first occurrences grow into pools with the same first occurrences. -/
theorem sameFirsts_append_additions (same : SameFirsts (·.behaviour examples) pool other)
    (typed : space.grammar.TypedPool pool) (otherTyped : space.grammar.TypedPool other)
    (bound : space.grammar.BoundBy examples) (nonempty : examples ≠ []) :
    SameFirsts (·.behaviour examples) (pool ++ space.additions pool)
      (other ++ space.additions other) := by
  refine same.append (SameFirsts.flatMap_congr fun op _ => ?_)
  have chosen : SameFirsts (List.map (·.behaviour examples))
      (choices ((space.positions op).map (space.offers pool)))
      (choices ((space.positions op).map (space.offers other))) := by
    apply SameFirsts.choices
    rw [List.forall₂_map_left_iff, List.forall₂_map_right_iff, List.forall₂_same]
    exact fun position _ => sameFirsts_offers same typed otherTyped bound nonempty position
  exact chosen.map fun left right alike => Candidate.behaviour_node_congr op alike

end SearchSpace

end ProgramSynthesis
