import Mathlib.Data.List.Find
import ProgramSynthesis.Proofs.Agreement
import ProgramSynthesis.Proofs.Levels

/-!
# Renamed variables

A renaming replaces every variable of a program, and every name that an example binds. Where it
keeps apart what is declared, a renamed program has the value on a renamed example that the
program has on the example. Growth and reduction never look at a name, so the next level of a
renamed pool is the renamed level.
-/

namespace ProgramSynthesis

/-- A program with every variable renamed. -/
def Expr.rename (fresh : String → String) : Expr → Expr
  | falsity => falsity
  | number value => number value
  | var name => var (fresh name)
  | not operand => not (operand.rename fresh)
  | binary op left right => binary op (left.rename fresh) (right.rename fresh)
  | ite condition consequent alternative =>
    ite (condition.rename fresh) (consequent.rename fresh) (alternative.rename fresh)

/-- A terminal with its variable renamed. -/
def Terminal.rename (fresh : String → String) : Terminal → Terminal
  | var name => var (fresh name)
  | number value => number value
  | falsity => falsity

namespace Candidate

mutual

/-- A candidate with every variable renamed. -/
def rename (fresh : String → String) : Candidate → Candidate
  | leaf terminal => leaf (terminal.rename fresh)
  | node op operands => node op (renameAll fresh operands)
termination_by structural candidate => candidate

/-- Operands with every variable renamed. -/
def renameAll (fresh : String → String) : List Candidate → List Candidate
  | [] => []
  | operand :: operands => operand.rename fresh :: renameAll fresh operands
termination_by structural operands => operands

end

/-- The operands of a node are renamed one by one. -/
theorem renameAll_eq_map (fresh : String → String) (operands : List Candidate) :
    renameAll fresh operands = operands.map (rename fresh) := by
  induction operands with
  | nil => rfl
  | cons operand operands ih => rw [renameAll, ih, List.map_cons]

end Candidate

/-- An environment with every bound name renamed; if two names become one, the later binding
stays. -/
def Env.rename (fresh : String → String) (env : Env) : Env :=
  .ofList (env.bindings.map fun binding => (fresh binding.1, binding.2))

/-- An example with every bound name renamed. -/
def Example.rename (fresh : String → String) (case : Example) : Example :=
  { case with input := case.input.rename fresh }

/-- A grammar with every declared name renamed. -/
def Grammar.rename (fresh : String → String) (grammar : Grammar) : Grammar :=
  { grammar with names := grammar.names.map fresh }

/-- A search space with every declared name renamed. -/
def SearchSpace.rename (fresh : String → String) (space : SearchSpace) : SearchSpace :=
  { space with grammar := space.grammar.rename fresh }

variable {fresh : String → String}

namespace Env

/-- The names of a renamed environment are the renamed names. -/
theorem mem_names_rename_iff {env : Env} {name : String} :
    name ∈ (env.rename fresh).names ↔ ∃ before ∈ env.names, fresh before = name := by
  have renamed : (env.bindings.map fun binding => (fresh binding.1, binding.2)).map Prod.fst =
      env.names.map fresh := by
    rw [names, List.map_map, List.map_map]
    rfl
  rw [rename, mem_names_ofList_iff, renamed, List.mem_map]

/-- A name reads after a renaming what it reads before, if no bound name is confused with
it. -/
theorem get?_rename {env : Env} {name : String}
    (apart : ∀ other ∈ env.names, fresh other = fresh name → other = name) :
    (env.rename fresh).get? (fresh name) = env.get? name := by
  have same : ∀ binding ∈ env.bindings.reverse,
      decide (fresh binding.1 = fresh name) = decide (binding.1 = name) := by
    intro binding inside
    rw [decide_eq_decide]
    have bound : binding.1 ∈ env.names := List.mem_map_of_mem (List.mem_reverse.mp inside)
    exact ⟨apart binding.1 bound, congrArg fresh⟩
  rw [rename, get?_ofList, get?_eq_find?_reverse, ← List.map_reverse, List.find?_map,
    Option.map_map]
  exact congrArg (Option.map Prod.snd) (List.find?_congr same)

end Env

/-- A renamed program has the value of the program where its variables are read alike. -/
theorem Expr.HasType.eval_rename {names : List String} {env renamed : Env} {program : Expr}
    {ty : Ty} (typed : program.HasType names ty)
    (view : ∀ name ∈ names, renamed.get? (fresh name) = env.get? name)
    (bound : env.BindsAll names) :
    (program.rename fresh).eval renamed = program.eval env := by
  induction typed with
  | falsity => rfl
  | number value => rfl
  | @var name declared =>
    obtain ⟨value, found⟩ := Option.isSome_iff_exists.mp (bound name declared)
    rw [rename, Expr.eval, Expr.eval, view name declared, found]
  | not _ ih => rw [rename, Expr.eval, Expr.eval, ih]
  | binary _ _ leftIh rightIh => rw [rename, Expr.eval, Expr.eval, leftIh, rightIh]
  | ite _ _ _ conditionIh consequentIh alternativeIh =>
    rw [rename, Expr.eval, Expr.eval, conditionIh, consequentIh, alternativeIh]

namespace Candidate

/-- A renamed candidate has the type of the candidate. -/
theorem ty_rename (candidate : Candidate) : (candidate.rename fresh).ty = candidate.ty := by
  cases candidate with
  | leaf terminal => cases terminal <;> rfl
  | node op operands => rfl

/-- A renamed candidate compiles to the renamed program. -/
theorem compile_rename (candidate : Candidate) :
    Agree (fun program renamed => renamed = program.rename fresh) candidate.compile
      (candidate.rename fresh).compile := by
  induction candidate using operandsInduction with
  | leaf terminal => cases terminal <;> exact .ok rfl
  | node op operands ih =>
    rw [rename, renameAll_eq_map]
    rcases op.form_cases with ⟨form, rfl⟩ | rfl | rfl
    · match operands with
      | [] | [_] => cases form <;> exact .fault _
      | left :: right :: rest =>
        rw [List.map_cons, List.map_cons, compile_binary, compile_binary]
        refine (ih left (by simp)).bind fun first first' same => ?_
        refine (ih right (by simp)).bind fun second second' alike => ?_
        rw [same, alike]
        exact .ok rfl
    · match operands with
      | [] => exact .fault _
      | operand :: rest =>
        refine (ih operand (by simp)).bind fun program renamed same => ?_
        rw [same]
        exact .ok rfl
    · match operands with
      | [] | [_] | [_, _] => exact .fault _
      | condition :: consequent :: alternative :: rest =>
        refine (ih condition (by simp)).bind fun first first' same => ?_
        refine (ih consequent (by simp)).bind fun second second' alike => ?_
        refine (ih alternative (by simp)).bind fun third third' like => ?_
        rw [same, alike, like]
        exact .ok rfl

end Candidate

namespace Grammar

variable {grammar : Grammar} {candidate : Candidate} {pool : List Candidate}
  {examples : List Example}

/-- A renamed candidate is well typed over the renamed grammar. -/
theorem WellTyped.rename (typed : grammar.WellTyped candidate) :
    (grammar.rename fresh).WellTyped (candidate.rename fresh) := by
  induction typed with
  | var declared => exact .var (List.mem_map_of_mem declared)
  | number value => exact .number value
  | falsity => exact .falsity
  | @node op operands suited each ih =>
    rw [Candidate.rename, Candidate.renameAll_eq_map]
    refine .node ?_ ?_
    · rw [List.map_map, ← suited]
      exact List.map_congr_left fun operand _ => operand.ty_rename
    · intro operand inside
      obtain ⟨original, within, rfl⟩ := List.mem_map.mp inside
      exact ih original within

/-- A renamed pool is well typed over the renamed grammar. -/
theorem TypedPool.rename (typed : grammar.TypedPool pool) :
    (grammar.rename fresh).TypedPool (pool.map (Candidate.rename fresh)) := by
  intro candidate inside
  obtain ⟨original, within, rfl⟩ := List.mem_map.mp inside
  exact (typed original within).rename

/-- When renamed examples are read as the examples are. -/
structure Renamable (grammar : Grammar) (fresh : String → String) (examples : List Example) :
    Prop where
  /-- The examples bind the declared names. -/
  bound : grammar.BoundBy examples
  /-- A declared name reads after the renaming what it reads before. -/
  view : ∀ case ∈ examples, ∀ name ∈ grammar.names,
    (case.input.rename fresh).get? (fresh name) = case.input.get? name

namespace Renamable

variable (renamable : grammar.Renamable fresh examples)

include renamable

/-- Renamed examples bind the renamed names. -/
theorem boundBy :
    (grammar.rename fresh).BoundBy (examples.map (Example.rename fresh)) := by
  intro case inside name declared
  obtain ⟨original, within, rfl⟩ := List.mem_map.mp inside
  obtain ⟨before, listed, rfl⟩ := List.mem_map.mp declared
  rw [Env.binds, Example.rename, renamable.view original within before listed]
  exact renamable.bound original within before listed

/-- A program over the grammar has its value on every renamed example. -/
theorem eval_eq {program : Expr} {ty : Ty} (typed : program.HasType grammar.names ty)
    {case : Example} (inside : case ∈ examples) :
    (program.rename fresh).eval (case.rename fresh).input = program.eval case.input :=
  typed.eval_rename (renamable.view case inside) (renamable.bound case inside)

/-- A renamed candidate compiles to a program that has, on every renamed example, the value of the
program that the candidate compiles to. -/
theorem exists_compile (typed : grammar.WellTyped candidate) :
    ∃ program, candidate.compile = .ok program ∧
      (candidate.rename fresh).compile = .ok (program.rename fresh) ∧
      ∀ case ∈ examples,
        (program.rename fresh).eval (case.rename fresh).input = program.eval case.input := by
  obtain ⟨program, compiled, programTyped⟩ := typed.compile
  have renamed : Agree (fun program renamed => renamed = program.rename fresh) candidate.compile
    (candidate.rename fresh).compile := candidate.compile_rename
  rw [compiled] at renamed
  generalize there : (candidate.rename fresh).compile = outcome at renamed
  cases renamed with
  | ok same =>
    exact ⟨program, compiled, congrArg Except.ok same, fun case inside =>
      renamable.eval_eq programTyped inside⟩

/-- A renamed candidate behaves on renamed examples as the candidate does. -/
theorem behaviour_eq (typed : grammar.WellTyped candidate) :
    (candidate.rename fresh).behaviour (examples.map (Example.rename fresh)) =
      candidate.behaviour examples := by
  obtain ⟨program, compiled, renamed, values⟩ := renamable.exists_compile typed
  rw [Candidate.behaviour, Candidate.behaviour, compiled, renamed, ok_bind, ok_bind, List.map_map]
  exact congrArg Except.ok (List.map_congr_left values)

/-- A renamed candidate is correct on renamed examples where the candidate is. -/
theorem isCorrect_eq (typed : grammar.WellTyped candidate) :
    (candidate.rename fresh).isCorrect (examples.map (Example.rename fresh)) =
      candidate.isCorrect examples := by
  obtain ⟨program, compiled, renamed, values⟩ := renamable.exists_compile typed
  rw [Candidate.isCorrect, Candidate.isCorrect, compiled, renamed, ok_bind, ok_bind]
  clear renamable
  induction examples with
  | nil => rfl
  | cons case examples ih =>
    have tail := ih fun other inside => values other (List.mem_cons_of_mem case inside)
    rw [List.map_cons, Expr.isCorrect, Expr.isCorrect, values case List.mem_cons_self, tail]
    rfl

/-- A renamed candidate solves renamed examples where the candidate solves the examples. -/
theorem mask_eq (typed : grammar.WellTyped candidate) :
    (candidate.rename fresh).mask (examples.map (Example.rename fresh)) =
      candidate.mask examples := by
  obtain ⟨program, compiled, renamed, values⟩ := renamable.exists_compile typed
  rw [Candidate.mask, Candidate.mask, compiled, renamed, ok_bind, ok_bind, Expr.mask, Expr.mask,
    List.mapM_map]
  congr 1
  refine mapM_congr fun case inside => ?_
  rw [Function.comp_apply, values case inside]
  rfl

end Renamable

end Grammar

/-- Choices among images are the images of the choices. -/
theorem choices_map {α β : Type} (build : α → β) (options : List (List α)) :
    choices (options.map (List.map build)) = (choices options).map (List.map build) := by
  induction options with
  | nil => rfl
  | cons option options ih =>
    rw [List.map_cons, choices, choices, ih, List.flatMap_map, List.map_flatMap]
    simp only [List.map_map, Function.comp_def, List.map_cons]

namespace SearchSpace

variable {space : SearchSpace} {pool : List Candidate} {examples : List Example}

/-- Renamed variables are renamed terminals. -/
theorem intTerminals_rename (grammar : Grammar) :
    (grammar.rename fresh).intTerminals =
      grammar.intTerminals.map (Candidate.rename fresh) := by
  simp [Grammar.intTerminals, Grammar.variableTerminals, Grammar.constantTerminals,
    Grammar.rename, Candidate.rename, Terminal.rename, Function.comp_def]

/-- The terminals of a renamed grammar are the renamed terminals. -/
theorem terminals_rename (grammar : Grammar) :
    (grammar.rename fresh).terminals = grammar.terminals.map (Candidate.rename fresh) := by
  rw [Grammar.terminals, Grammar.terminals, intTerminals_rename, List.map_append]
  rfl

/-- A renamed pool offers renamed operands. -/
theorem offers_rename (pool : List Candidate) (position : OperandSource × Ty) :
    (space.rename fresh).offers (pool.map (Candidate.rename fresh)) position =
      (space.offers pool position).map (Candidate.rename fresh) := by
  obtain ⟨source, ty⟩ := position
  cases source with
  | pool =>
    rw [offers, offers, List.filter_map]
    simp only [Function.comp_def, Candidate.ty_rename]
  | names =>
    simp [offers, rename, Grammar.variableTerminals, Grammar.rename, Candidate.rename,
      Terminal.rename, Function.comp_def]
  | terminals => exact intTerminals_rename space.grammar

/-- A round from a renamed pool appends renamed candidates. -/
theorem additions_rename (pool : List Candidate) :
    (space.rename fresh).additions (pool.map (Candidate.rename fresh)) =
      (space.additions pool).map (Candidate.rename fresh) := by
  have built : ∀ op, (space.rename fresh).built (pool.map (Candidate.rename fresh)) op =
      (space.built pool op).map (Candidate.rename fresh) := by
    intro op
    have offered : ((space.rename fresh).positions op).map
        ((space.rename fresh).offers (pool.map (Candidate.rename fresh))) =
          ((space.positions op).map (space.offers pool)).map
            (List.map (Candidate.rename fresh)) := by
      rw [List.map_map]
      exact List.map_congr_left fun position _ => offers_rename pool position
    rw [SearchSpace.built, SearchSpace.built, offered, choices_map, List.map_map, List.map_map]
    refine List.map_congr_left fun operands _ => ?_
    rw [Function.comp_apply, Function.comp_apply, Candidate.rename, Candidate.renameAll_eq_map]
  rw [additions, additions, List.map_flatMap]
  exact List.flatMap_congr fun op _ => built op

/-- A round from a renamed pool has the size of the round. -/
theorem roundSize_rename (pool : List Candidate) :
    (space.rename fresh).roundSize (pool.map (Candidate.rename fresh)) = space.roundSize pool := by
  rw [roundSize, roundSize, additions_rename, List.length_map, List.length_map]

/-- The next level of a renamed pool is the renamed level. Reduction compares behaviours, and
renamed candidates behave as before. -/
theorem advance_rename (renamable : space.grammar.Renamable fresh examples)
    (typed : space.grammar.TypedPool pool) :
    (space.rename fresh).advance (examples.map (Example.rename fresh))
        (pool.map (Candidate.rename fresh)) =
      (space.advance examples pool).map (Candidate.rename fresh) := by
  rw [advance, advance, additions_rename, ← List.map_append, firsts_map]
  congr 1
  refine firsts_congr fun left here right there => ?_
  have grown := typedPool_append_additions typed
  rw [Function.comp_apply, Function.comp_apply, renamable.behaviour_eq (grown left here),
    renamable.behaviour_eq (grown right there)]

end SearchSpace

end ProgramSynthesis
