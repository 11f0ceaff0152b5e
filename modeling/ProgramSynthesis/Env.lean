/-!
# Environments

The named integers a program reads. A later binding of a name replaces the earlier one, and
the view of an environment is `Env.get?`: two environments with the same view evaluate every
program alike.
-/

namespace ProgramSynthesis

/-- Integers bound to names, each name once. -/
structure Env where
  /-- The bindings, in the order in which their names were last bound. -/
  bindings : List (String × Int64)
  /-- No name is bound twice. -/
  nodup : (bindings.map Prod.fst).Nodup
deriving DecidableEq, Repr

namespace Env

/-- The environment without bindings. -/
def empty : Env := ⟨[], .nil⟩

/-- A name is bound once after its earlier bindings are dropped and it is bound anew. -/
theorem nodup_replace {bindings : List (String × Int64)}
    (distinct : (bindings.map Prod.fst).Nodup) (name : String) (value : Int64) :
    ((bindings.filter (fun binding => binding.1 ≠ name) ++ [(name, value)]).map
      Prod.fst).Nodup := by
  rw [List.map_append, List.map_singleton, List.nodup_append]
  refine ⟨distinct.sublist (List.filter_sublist.map Prod.fst), List.pairwise_singleton _ _, ?_⟩
  intro other inside last here
  obtain ⟨binding, kept, rfl⟩ := List.mem_map.mp inside
  have differs := (List.mem_filter.mp kept).2
  rw [List.mem_singleton.mp here]
  exact of_decide_eq_true differs

/-- Bind a name, replacing an earlier binding of it. -/
def insert (env : Env) (name : String) (value : Int64) : Env :=
  ⟨env.bindings.filter (fun binding => binding.1 ≠ name) ++ [(name, value)],
    nodup_replace env.nodup name value⟩

/-- Bind names in order; of two bindings of a name the later one stays. -/
def ofList (bindings : List (String × Int64)) : Env :=
  bindings.foldl (fun env binding => env.insert binding.1 binding.2) empty

/-- The value bound to a name. -/
def get? (env : Env) (name : String) : Option Int64 :=
  (env.bindings.find? fun binding => binding.1 = name).map Prod.snd

/-- The names that are bound. -/
def names (env : Env) : List String := env.bindings.map Prod.fst

/-- Whether a name is bound. -/
def binds (env : Env) (name : String) : Bool := (env.get? name).isSome

/-- Nothing is bound in the empty environment. -/
@[simp] theorem get?_empty (name : String) : empty.get? name = none := rfl

/-- Dropping the bindings of one name leaves the view of every other name. -/
theorem find?_filter_ne {name other : String} (distinct : name ≠ other)
    (bindings : List (String × Int64)) :
    (bindings.filter fun binding => binding.1 ≠ name).find? (fun binding => binding.1 = other) =
      bindings.find? fun binding => binding.1 = other := by
  induction bindings with
  | nil => rfl
  | cons binding bindings ih =>
    by_cases dropped : binding.1 = name
    · have skipped : binding.1 ≠ other := fun h => distinct (dropped.symm.trans h)
      simpa [dropped, skipped, distinct] using ih
    · by_cases found : binding.1 = other
      · simp [found, distinct.symm]
      · simpa [dropped, found] using ih

/-- A name reads the value last bound to it; the other names are untouched. -/
theorem get?_insert (env : Env) (name other : String) (value : Int64) :
    (env.insert name value).get? other = if name = other then some value else env.get? other := by
  by_cases same : name = other
  · subst same
    have absent : (env.bindings.filter fun binding => binding.1 ≠ name).find?
        (fun binding => binding.1 = name) = none := by
      simp [List.find?_eq_none]
    simp only [get?, insert, List.find?_append, absent]
    simp
  · simp only [get?, insert, List.find?_append, find?_filter_ne same]
    simp [same]

/-- A name is bound exactly when it is listed. -/
theorem binds_iff_mem_names (env : Env) (name : String) :
    env.binds name = true ↔ name ∈ env.names := by
  simp only [binds, get?, names, Option.isSome_map, List.find?_isSome, List.mem_map,
    decide_eq_true_eq]

/-- A binding of a changed environment is the new one or one of another name. -/
theorem mem_bindings_insert_iff {env : Env} {name : String} {value : Int64}
    {binding : String × Int64} :
    binding ∈ (env.insert name value).bindings ↔
      (binding ∈ env.bindings ∧ binding.1 ≠ name) ∨ binding = (name, value) := by
  simp [insert]

/-- The names of a changed environment are the new one and those there were. -/
theorem mem_names_insert_iff {env : Env} {name other : String} {value : Int64} :
    other ∈ (env.insert name value).names ↔ other ∈ env.names ∨ other = name := by
  simp only [names, List.mem_map, mem_bindings_insert_iff]
  constructor
  · rintro ⟨binding, ⟨inside, _⟩ | rfl, rfl⟩
    · exact .inl ⟨binding, inside, rfl⟩
    · exact .inr rfl
  · rintro (⟨binding, inside, rfl⟩ | rfl)
    · by_cases replaced : binding.1 = name
      · exact ⟨(name, value), .inr rfl, replaced.symm⟩
      · exact ⟨binding, .inl ⟨inside, replaced⟩, rfl⟩
    · exact ⟨(other, value), .inr rfl, rfl⟩

/-- The names of a list of bindings are bound. -/
theorem mem_names_ofList_iff {bindings : List (String × Int64)} {name : String} :
    name ∈ (ofList bindings).names ↔ name ∈ bindings.map Prod.fst := by
  have all : ∀ env : Env,
      name ∈ (bindings.foldl (fun env binding => env.insert binding.1 binding.2) env).names ↔
        name ∈ env.names ∨ name ∈ bindings.map Prod.fst := by
    induction bindings with
    | nil => simp
    | cons binding bindings ih =>
      intro env
      rw [List.foldl_cons, ih, mem_names_insert_iff, List.map_cons, List.mem_cons, or_assoc]
  rw [ofList, all]
  simp [names, empty]

/-- A name of a list of bindings reads the value bound to it last. -/
theorem get?_ofList (bindings : List (String × Int64)) (name : String) :
    (ofList bindings).get? name =
      (bindings.reverse.find? fun binding => binding.1 = name).map Prod.snd := by
  have all : ∀ env : Env,
      (bindings.foldl (fun env binding => env.insert binding.1 binding.2) env).get? name =
        ((bindings.reverse.find? fun binding => binding.1 = name).map Prod.snd).or
          (env.get? name) := by
    induction bindings with
    | nil => simp
    | cons binding bindings ih =>
      intro env
      rw [List.foldl_cons, ih, get?_insert, List.reverse_cons, List.find?_append]
      cases bindings.reverse.find? fun binding => binding.1 = name with
      | some found => rfl
      | none =>
        by_cases same : binding.1 = name
        · simp [same]
        · simp [same]
  rw [ofList, all, get?_empty, Option.or_none]

/-- Since no name is bound twice, the bindings may be searched from behind. -/
theorem get?_eq_find?_reverse (env : Env) (name : String) :
    env.get? name =
      (env.bindings.reverse.find? fun binding => binding.1 = name).map Prod.snd := by
  obtain ⟨bindings, distinct⟩ := env
  rw [get?]
  induction bindings with
  | nil => rfl
  | cons binding bindings ih =>
    obtain ⟨absent, distinct⟩ := List.nodup_cons.mp distinct
    rw [List.reverse_cons, List.find?_append]
    by_cases same : binding.1 = name
    · have none : bindings.reverse.find? (fun binding => binding.1 = name) = none := by
        rw [List.find?_eq_none]
        intro other inside again
        have equal : other.1 = binding.1 := (of_decide_eq_true again).trans same.symm
        exact absent (equal ▸ List.mem_map_of_mem (List.mem_reverse.mp inside))
      simp [none, same]
    · have rest := ih distinct
      simp only at rest
      simp [same, rest]

end Env

end ProgramSynthesis
