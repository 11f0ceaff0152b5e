import Mathlib.Data.Finset.Dedup
import ProgramSynthesis.Proofs.Fallible
import ProgramSynthesis.Synthesis

/-!
# What validation accepts and what it reports

Validation makes one check after the other and reports the first that fails. `Problem.FirstError`
says, without the checks, which error that is: each kind of error is reported only when the kinds
before it do not apply, and it names the earliest variable, or the earliest example, at fault. The
parts of a problem are accepted when no kind applies, and both strategies then start to search.
-/

namespace ProgramSynthesis

variable {names : List String} {constants : List Int64} {examples : List Example}

/-- Whether an example binds exactly the declared names. -/
def Example.Fits (names : List String) (case : Example) : Prop :=
  case.input.names.toFinset = names.toFinset

/-- An example fits when it binds a name exactly if the name is declared. -/
theorem Example.fits_iff_forall_mem_iff {case : Example} :
    case.Fits names ↔ ∀ name, name ∈ case.input.names ↔ name ∈ names := by
  simp only [Fits, Finset.ext_iff, List.mem_toFinset]

/-- What is reported of an example that does not fit. -/
inductive Example.Misfit (names : List String) (case : Example) (index : Nat) :
    ProblemError → Prop where
  /-- The earliest declared name that the example lacks. -/
  | missing {before after : List String} {name : String}
    (split : names = before ++ name :: after)
    (bound : ∀ earlier ∈ before, earlier ∈ case.input.names)
    (lacking : name ∉ case.input.names) : Misfit names case index (.missingVariable index name)
  /-- A name that is not declared, when the example lacks no declared name. -/
  | unknown {name : String} (complete : ∀ declared ∈ names, declared ∈ case.input.names)
    (bound : name ∈ case.input.names) (undeclared : name ∉ names) :
    Misfit names case index (.unknownVariable index name)

/-- What is reported of parts that are not a problem. -/
inductive Problem.FirstError (names : List String) (constants : List Int64)
    (examples : List Example) : ProblemError → Prop where
  /-- There is no example. -/
  | noExamples (none : examples = []) : FirstError names constants examples .noExamples
  /-- There are examples, but no terminals. -/
  | noTerminals (nonempty : examples ≠ []) (none : names = [] ∧ constants = []) :
    FirstError names constants examples .noTerminals
  /-- There are terminals, but the declarations repeat a name, this one first. -/
  | duplicateVariable {before after : List String} {name : String} (nonempty : examples ≠ [])
    (terminals : ¬(names = [] ∧ constants = [])) (split : names = before ++ name :: after)
    (distinct : before.Nodup) (again : name ∈ before) :
    FirstError names constants examples (.duplicateVariable name)
  /-- The declarations are sound, but an example does not fit, this one first. -/
  | misfit {before after : List Example} {case : Example} {error : ProblemError}
    (nonempty : examples ≠ []) (terminals : ¬(names = [] ∧ constants = []))
    (distinct : names.Nodup) (split : examples = before ++ case :: after)
    (fitting : ∀ earlier ∈ before, earlier.Fits names)
    (misfit : case.Misfit names before.length error) : FirstError names constants examples error

/-- The repeated name that is found is the first one, and what precedes it is distinct. -/
theorem firstRepeat?_eq_some {seen : List String} {name : String}
    (found : firstRepeat? seen names = some name) :
    ∃ before after, names = before ++ name :: after ∧ before.Nodup ∧
      (∀ earlier ∈ before, earlier ∉ seen) ∧ (name ∈ before ∨ name ∈ seen) := by
  induction names generalizing seen with
  | nil => cases found
  | cons head tail ih =>
    rw [firstRepeat?] at found
    by_cases repeated : head ∈ seen
    · rw [if_pos repeated] at found
      cases found
      exact ⟨[], tail, rfl, .nil, List.forall_mem_nil _, .inr repeated⟩
    · rw [if_neg repeated] at found
      obtain ⟨before, after, rfl, distinct, fresh, again⟩ := ih found
      have absent : head ∉ before := fun inside => fresh head inside List.mem_cons_self
      refine ⟨head :: before, after, rfl, List.nodup_cons.mpr ⟨absent, distinct⟩, ?_, ?_⟩
      · rw [List.forall_mem_cons]
        exact ⟨repeated, fun earlier inside before =>
          fresh earlier inside (List.mem_cons_of_mem head before)⟩
      · rcases again with inside | met
        · exact .inl (List.mem_cons_of_mem head inside)
        · rcases List.mem_cons.mp met with rfl | earlier
          · exact .inl List.mem_cons_self
          · exact .inr earlier

/-- The mismatch that is found is what is to be reported of the example. -/
theorem Example.misfit_of_mismatch? {case : Example} {index : Nat} {error : ProblemError}
    (found : case.mismatch? names index = some error) : case.Misfit names index error := by
  unfold mismatch? at found
  cases lacking : names.find? fun name => !case.input.binds name with
  | some name =>
    rw [lacking] at found
    cases found
    obtain ⟨unbound, before, after, split, bound⟩ := List.find?_eq_some_iff_append.mp lacking
    refine .missing split (fun earlier inside => ?_) fun inside => ?_
    · rw [← Env.binds_iff_mem_names]
      simpa using bound earlier inside
    · rw [(Env.binds_iff_mem_names case.input name).mpr inside] at unbound
      cases unbound
  | none =>
    rw [lacking] at found
    obtain ⟨name, unknown, rfl⟩ := Option.map_eq_some_iff.mp found
    have undeclared : name ∉ names := by simpa using List.find?_some unknown
    refine .unknown (fun declared inside => ?_) (List.mem_of_find?_eq_some unknown) undeclared
    rw [← Env.binds_iff_mem_names]
    simpa using List.find?_eq_none.mp lacking declared inside

/-- The mismatch that is found is that of the first example that does not fit. -/
theorem firstMismatch?_eq_some {error : ProblemError}
    (found : firstMismatch? names examples = some error) :
    ∃ before case after, examples = before ++ case :: after ∧
      (∀ earlier ∈ before, earlier.Fits names) ∧ case.Misfit names before.length error := by
  obtain ⟨earlier, ⟨case, index⟩, later, split, mismatch, fitting⟩ :=
    List.findSome?_eq_some_iff.mp found
  obtain ⟨before, rest, rfl, rfl, numbered⟩ := List.zipIdx_eq_append_iff.mp split
  obtain ⟨_, after, rfl, same, _⟩ := List.zipIdx_eq_cons_iff.mp numbered.symm
  cases same
  rw [Nat.zero_add] at mismatch
  refine ⟨before, case, after, rfl, fun other inside => ?_, Example.misfit_of_mismatch? mismatch⟩
  obtain ⟨place, there⟩ := List.mem_iff_getElem?.mp inside
  have fits := fitting (other, place) (List.mk_mem_zipIdx_iff_getElem?.mpr there)
  exact Example.fits_iff_forall_mem_iff.mpr ((Example.mismatch?_eq_none_iff _ _ _).mp fits)

/-- An example of which something is to be reported does not fit. -/
theorem Example.Misfit.not_fits {case : Example} {index : Nat} {error : ProblemError}
    (misfit : case.Misfit names index error) : ¬case.Fits names := by
  rw [fits_iff_forall_mem_iff]
  intro same
  cases misfit with
  | @missing before after name split bound lacking =>
    have declared : name ∈ names := by
      rw [split]
      exact List.mem_append_right before List.mem_cons_self
    exact lacking ((same name).mpr declared)
  | @unknown name _ bound undeclared => exact undeclared ((same name).mp bound)

namespace Problem

/-- Parts of which something is to be reported do not fit together. -/
theorem FirstError.unfit {error : ProblemError}
    (first : FirstError names constants examples error) :
    examples = [] ∨ (names = [] ∧ constants = []) ∨ ¬names.Nodup ∨
      ∃ case ∈ examples, ¬case.Fits names := by
  cases first with
  | noExamples none => exact .inl none
  | noTerminals _ none => exact .inr (.inl none)
  | @duplicateVariable before after name _ _ split _ again =>
    refine .inr (.inr (.inl ?_))
    rw [split, List.nodup_append]
    rintro ⟨_, _, apart⟩
    exact apart name again name List.mem_cons_self rfl
  | @misfit before after case error _ _ _ split _ misfit =>
    refine .inr (.inr (.inr ⟨case, ?_, misfit.not_fits⟩))
    rw [split]
    exact List.mem_append_right before List.mem_cons_self

/-- Validation reports the first error, or joins the parts. -/
theorem validate_cases (names : List String) (constants : List Int64) (examples : List Example) :
    (∃ error, validate names constants examples = .error error ∧
      FirstError names constants examples error) ∨
    ∃ problem, validate names constants examples = .ok problem ∧
      problem.grammar = ⟨names, constants⟩ ∧ problem.examples = examples := by
  unfold validate
  by_cases noExamples : examples = []
  · rw [dif_pos noExamples]
    exact .inl ⟨_, rfl, .noExamples noExamples⟩
  rw [dif_neg noExamples]
  by_cases noTerminals : names = [] ∧ constants = []
  · rw [dif_pos noTerminals]
    exact .inl ⟨_, rfl, .noTerminals noExamples noTerminals⟩
  rw [dif_neg noTerminals]
  split
  · rename_i name repeated
    obtain ⟨before, after, split, distinct, _, again⟩ := firstRepeat?_eq_some repeated
    have earlier : name ∈ before := again.resolve_right List.not_mem_nil
    exact .inl ⟨_, rfl, .duplicateVariable noExamples noTerminals split distinct earlier⟩
  · rename_i distinct
    have nodup : names.Nodup := ((firstRepeat?_eq_none_iff [] names).mp distinct).1
    split
    · rename_i error mismatch
      obtain ⟨before, case, after, split, fitting, misfit⟩ := firstMismatch?_eq_some mismatch
      exact .inl ⟨error, rfl, .misfit noExamples noTerminals nodup split fitting misfit⟩
    · exact .inr ⟨_, rfl, rfl, rfl⟩

/-- Validation joins the given parts. -/
theorem parts_of_validate {problem : Problem}
    (valid : validate names constants examples = .ok problem) :
    problem.grammar = ⟨names, constants⟩ ∧ problem.examples = examples := by
  rcases validate_cases names constants examples with ⟨error, invalid, _⟩ | ⟨other, same, parts⟩
  · rw [invalid] at valid
    cases valid
  · rw [same] at valid
    cases valid
    exact parts

/-- The parts of a problem fit together. -/
theorem not_unfit {problem : Problem}
    (valid : validate names constants examples = .ok problem) :
    ¬(examples = [] ∨ (names = [] ∧ constants = []) ∨ ¬names.Nodup ∨
      ∃ case ∈ examples, ¬case.Fits names) := by
  obtain ⟨grammar, rfl⟩ := parts_of_validate valid
  have terminals := problem.terminals
  have distinct := problem.nodup
  have binds := problem.binds
  rw [grammar] at terminals distinct binds
  rintro (none | none | again | ⟨case, inside, misfit⟩)
  · exact problem.examples_ne_nil none
  · exact terminals none
  · exact again distinct
  · exact misfit (Example.fits_iff_forall_mem_iff.mpr (binds case inside))

/-- Validation reports an error exactly when the parts do not fit together. -/
theorem exists_validate_eq_error_iff :
    (∃ error, validate names constants examples = .error error) ↔
      examples = [] ∨ (names = [] ∧ constants = []) ∨ ¬names.Nodup ∨
        ∃ case ∈ examples, ¬case.Fits names := by
  rcases validate_cases names constants examples with ⟨error, invalid, first⟩ | ⟨problem, valid, _⟩
  · exact iff_of_true ⟨error, invalid⟩ first.unfit
  · refine iff_of_false ?_ (not_unfit valid)
    rintro ⟨error, invalid⟩
    rw [valid] at invalid
    cases invalid

/-- Parts that fit together are a problem. -/
theorem exists_validate (nonempty : examples ≠ []) (terminals : ¬(names = [] ∧ constants = []))
    (nodup : names.Nodup)
    (binds : ∀ case ∈ examples, ∀ name, name ∈ case.input.names ↔ name ∈ names) :
    ∃ problem, validate names constants examples = .ok problem := by
  rcases validate_cases names constants examples with ⟨error, _, first⟩ | ⟨problem, valid, _⟩
  · rcases first.unfit with none | none | again | ⟨case, inside, misfit⟩
    · exact absurd none nonempty
    · exact absurd none terminals
    · exact absurd nodup again
    · exact absurd (Example.fits_iff_forall_mem_iff.mpr (binds case inside)) misfit
  · exact ⟨problem, valid⟩

end Problem

/-- A synthesis refuses a level bound of zero, and otherwise what validation refuses. A search
that starts ends with a report or with a fault. -/
theorem synthesize_eq_error_iff {strategy : Strategy} {config : SearchConfig}
    {error : ProblemError} :
    synthesize strategy config names constants examples = .ok (.error error) ↔
      (config.maxLevel = 0 ∧ error = .zeroLevel) ∨
      (config.maxLevel ≠ 0 ∧ Problem.validate names constants examples = .error error) := by
  unfold synthesize
  by_cases zero : config.maxLevel = 0
  · rw [if_pos zero]
    simp [zero, eq_comm]
  · rw [if_neg zero]
    cases validated : Problem.validate names constants examples with
    | error other => simp [zero]
    | ok problem =>
      refine iff_of_false (fun returned => ?_) (by simp [zero])
      obtain ⟨report, _, same⟩ := bind_eq_ok_iff.mp returned
      cases same

/-- Validation accepts exactly the well-formed problems and reports the first fault. Whatever the
strategy and the settings, an error is returned exactly when the level bound is zero, there is no
example, there is neither a variable nor a literal, a variable is declared twice, or the inputs of
some example are not the declared variables. A level bound of zero is reported before anything
else; then the error is the first one of the parts of the problem. -/
theorem synthesize_reports_first_error (strategy : Strategy) (config : SearchConfig)
    (names : List String) (constants : List Int64) (examples : List Example) :
    ((∃ error, synthesize strategy config names constants examples = .ok (.error error)) ↔
      config.maxLevel = 0 ∨ examples = [] ∨ (names = [] ∧ constants = []) ∨ ¬names.Nodup ∨
        ∃ case ∈ examples, ¬case.Fits names) ∧
    ∀ error, synthesize strategy config names constants examples = .ok (.error error) →
      (config.maxLevel = 0 ∧ error = .zeroLevel) ∨
      (config.maxLevel ≠ 0 ∧ Problem.FirstError names constants examples error) := by
  constructor
  · rw [← Problem.exists_validate_eq_error_iff]
    simp only [synthesize_eq_error_iff]
    by_cases zero : config.maxLevel = 0
    · simp [zero]
    · simp [zero]
  · intro error refused
    rcases synthesize_eq_error_iff.mp refused with level | ⟨level, invalid⟩
    · exact .inl level
    · rcases Problem.validate_cases names constants examples with
        ⟨other, reported, first⟩ | ⟨problem, valid, _⟩
      · rw [reported] at invalid
        cases invalid
        exact .inr ⟨level, first⟩
      · rw [valid] at invalid
        cases invalid

/-- A name that is lacking is reported before one that is unknown, whichever stands first. -/
example : synthesize .enumerative .standard ["x", "y"] []
    [⟨.ofList [("y", 1), ("x", 2)], .int 1⟩, ⟨.ofList [("z", 1), ("x", 2)], .int 1⟩] =
      .ok (.error (.missingVariable 1 "y")) := by
  rfl

end ProgramSynthesis
