import ProgramSynthesis.Example.Basic
import ProgramSynthesis.Grammar

/-!
# Problems

A problem is a grammar and a list of examples that fit together: there is an example, there
is a terminal other than false, no variable is declared twice, and every example binds exactly
the declared variables. `Problem.validate` builds one from its parts or names the first thing
that is wrong with them.
-/

namespace ProgramSynthesis

/-- What can be wrong with the inputs of a synthesis. -/
inductive ProblemError where
  /-- There is nothing to satisfy. -/
  | noExamples
  /-- The search may not grow at all. -/
  | zeroLevel
  /-- There are neither variables nor literals. -/
  | noTerminals
  /-- A variable is declared again. -/
  | duplicateVariable (name : String)
  /-- An example lacks a declared variable. -/
  | missingVariable (index : Nat) (name : String)
  /-- An example binds a name that is not declared. -/
  | unknownVariable (index : Nat) (name : String)
deriving DecidableEq, Repr

/-- The text that describes a problem error. -/
def ProblemError.message : ProblemError → String
  | noExamples => "no examples were provided"
  | zeroLevel => "the level bound must be positive"
  | noTerminals => "the grammar has no integer terminals (no variables and no constants)"
  | duplicateVariable name => s!"variable `{name}` is declared more than once"
  | missingVariable index name => s!"example {index} has no value for variable `{name}`"
  | unknownVariable index name => s!"example {index} binds undeclared variable `{name}`"

/-- The name at the earliest position that repeats an earlier name or one already seen. -/
def firstRepeat? (seen : List String) : List String → Option String
  | [] => none
  | name :: names => if name ∈ seen then some name else firstRepeat? (name :: seen) names

/-- Nothing repeats exactly when the names are distinct and none was seen before. -/
theorem firstRepeat?_eq_none_iff (seen names : List String) :
    firstRepeat? seen names = none ↔ names.Nodup ∧ ∀ name ∈ names, name ∉ seen := by
  induction names generalizing seen with
  | nil => simp [firstRepeat?]
  | cons name names ih =>
    by_cases repeated : name ∈ seen
    · simp [firstRepeat?, repeated]
    · simp only [firstRepeat?, repeated, ↓reduceIte, ih, List.nodup_cons, List.mem_cons,
        forall_eq_or_imp, not_false_eq_true, true_and, not_or]
      constructor
      · rintro ⟨distinct, fresh⟩
        exact ⟨⟨fun again => (fresh name again).1 rfl, distinct⟩,
          fun other inside => (fresh other inside).2⟩
      · rintro ⟨⟨absent, distinct⟩, fresh⟩
        exact ⟨distinct, fun other inside =>
          ⟨fun same => absent (same ▸ inside), fresh other inside⟩⟩

/-- How the names bound by one example differ from the declared ones: the first declared name
it lacks, or, if it lacks none, a name it binds that is not declared. -/
def Example.mismatch? (names : List String) (case : Example) (index : Nat) :
    Option ProblemError :=
  match names.find? fun name => !case.input.binds name with
  | some name => some (.missingVariable index name)
  | none => (case.input.names.find? fun name => !names.contains name).map
    (.unknownVariable index)

/-- An example does not mismatch exactly when it binds the declared names and no others. -/
theorem Example.mismatch?_eq_none_iff (names : List String) (case : Example) (index : Nat) :
    case.mismatch? names index = none ↔
      ∀ name, name ∈ case.input.names ↔ name ∈ names := by
  unfold mismatch?
  cases lacking : names.find? fun name => !case.input.binds name with
  | some name =>
    have absent := List.find?_some lacking
    have declared := List.mem_of_find?_eq_some lacking
    simp only [Bool.not_eq_true', Bool.eq_false_iff, ne_eq, Env.binds_iff_mem_names] at absent
    simp only [reduceCtorEq, false_iff]
    exact fun same => absent ((same name).mpr declared)
  | none =>
    simp only [List.find?_eq_none, Bool.not_eq_true', Bool.not_eq_false,
      Env.binds_iff_mem_names] at lacking
    simp only [Option.map_eq_none_iff, List.find?_eq_none, Bool.not_eq_true', Bool.not_eq_false,
      List.contains_iff_mem]
    exact ⟨fun known name => ⟨known name, lacking name⟩, fun same name => (same name).mp⟩

/-- The first mismatch among the examples, which are numbered from zero. -/
def firstMismatch? (names : List String) (examples : List Example) : Option ProblemError :=
  examples.zipIdx.findSome? fun (case, index) => case.mismatch? names index

/-- No example mismatches exactly when all bind the declared names and no others. -/
theorem firstMismatch?_eq_none_iff (names : List String) (examples : List Example) :
    firstMismatch? names examples = none ↔
      ∀ case ∈ examples, ∀ name, name ∈ case.input.names ↔ name ∈ names := by
  simp only [firstMismatch?, List.findSome?_eq_none_iff, Example.mismatch?_eq_none_iff,
    Prod.forall]
  constructor
  · intro held case inside
    obtain ⟨index, found⟩ := List.mem_iff_getElem?.mp inside
    exact held case index (List.mk_mem_zipIdx_iff_getElem?.mpr found)
  · intro held case index place
    exact held case (List.fst_mem_of_mem_zipIdx place)

/-- A grammar and examples that fit together. -/
structure Problem where
  /-- The declared terminals. -/
  grammar : Grammar
  /-- What the program must do. -/
  examples : List Example
  /-- There is an example. -/
  examples_ne_nil : examples ≠ []
  /-- There is a variable or a literal. -/
  terminals : ¬(grammar.names = [] ∧ grammar.constants = [])
  /-- No variable is declared twice. -/
  nodup : grammar.names.Nodup
  /-- Every example binds exactly the declared variables. -/
  binds : ∀ case ∈ examples, ∀ name, name ∈ case.input.names ↔ name ∈ grammar.names

/-- Join the parts of a problem, or report the first thing that is wrong with them. -/
def Problem.validate (names : List String) (constants : List Int64)
    (examples : List Example) : Except ProblemError Problem :=
  if noExamples : examples = [] then
    .error .noExamples
  else if noTerminals : names = [] ∧ constants = [] then
    .error .noTerminals
  else
    match distinct : firstRepeat? [] names with
    | some name => .error (.duplicateVariable name)
    | none =>
      match fitting : firstMismatch? names examples with
      | some error => .error error
      | none => .ok {
          grammar := ⟨names, constants⟩
          examples := examples
          examples_ne_nil := noExamples
          terminals := noTerminals
          nodup := ((firstRepeat?_eq_none_iff [] names).mp distinct).1
          binds := (firstMismatch?_eq_none_iff names examples).mp fitting }

end ProgramSynthesis
