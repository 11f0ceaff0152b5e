import ProgramSynthesis.Proofs.Renaming
import ProgramSynthesis.Proofs.Soundness
import ProgramSynthesis.Proofs.Success

/-!
# Searches with renamed variables

A search of a renamed problem takes the steps of the search of the problem, over renamed
candidates: it counts the same, marks the same examples, picks the renamed pieces and separates
them by renamed conditions. So it returns the renamed program.
-/

namespace ProgramSynthesis

/-- A report with another form of its result. -/
def Report.map {α β : Type} (change : α → β) (report : Report α) : Report β :=
  ⟨report.result.map change, report.counters⟩

/-- A scored candidate with every variable renamed. -/
def Scored.rename (fresh : String → String) (entry : Scored) : Scored :=
  { entry with candidate := entry.candidate.rename fresh }

/-- A piece with every variable renamed. -/
def Piece.rename (fresh : String → String) (piece : Piece) : Piece :=
  { piece with program := piece.program.rename fresh }

/-- A stage with every variable renamed. -/
def Stage.rename (fresh : String → String) : Stage → Stage
  | searching collected uncovered => searching (collected.map (Piece.rename fresh)) uncovered
  | covered pieces => covered (pieces.map (Piece.rename fresh))
  | unifying merged rest => unifying (merged.rename fresh) (rest.map (Piece.rename fresh))
  | done piece => done (piece.rename fresh)

section

variable {fresh : String → String} {examples : List Example} {poolLimit maxLevel rounds : Nat}
  {counters : Counters}

namespace SearchSpace

variable {space : SearchSpace} {pool : List Candidate}

/-- A level from a renamed pool gives the renamed level. -/
theorem growLevel_rename (renamable : space.grammar.Renamable fresh examples)
    (typed : space.grammar.TypedPool pool) :
    Agree (fun report renamed => renamed = report.map (List.map (Candidate.rename fresh)))
      (growLevel space examples poolLimit pool counters)
      (growLevel (space.rename fresh) (examples.map (Example.rename fresh)) poolLimit
        (pool.map (Candidate.rename fresh)) counters) := by
  have typedThere : (space.rename fresh).grammar.TypedPool (pool.map (Candidate.rename fresh)) :=
    typed.rename
  have boundThere : (space.rename fresh).grammar.BoundBy (examples.map (Example.rename fresh)) :=
    renamable.boundBy
  rw [growLevel_eq typed renamable.bound, growLevel_eq typedThere boundThere, roundSize_rename,
    additions_rename, advance_rename renamable typed, List.length_map, List.length_map]
  by_cases fits : space.roundSize pool ≤ poolLimit
  · rw [if_pos fits, if_pos fits]
    refine .bind_same fun counted => ?_
    exact .ok rfl
  · rw [if_neg fits, if_neg fits]
    exact .ok rfl

/-- Levels from a renamed pool give the renamed levels. -/
theorem growLevels_rename (renamable : space.grammar.Renamable fresh examples)
    (typed : space.grammar.TypedPool pool) :
    Agree (fun report renamed => renamed = report.map (List.map (Candidate.rename fresh)))
      (growLevels space examples poolLimit rounds pool counters)
      (growLevels (space.rename fresh) (examples.map (Example.rename fresh)) poolLimit rounds
        (pool.map (Candidate.rename fresh)) counters) := by
  induction rounds generalizing pool counters with
  | zero => exact .ok rfl
  | succ rounds ih =>
    refine (growLevel_rename renamable typed).bind_image fun report grown => ?_
    obtain ⟨next, later⟩ := report
    cases next with
    | none => exact .ok rfl
    | some next => exact ih (typedPool_of_growLevel typed renamable.bound grown)

/-- The first correct member of a renamed pool is the renamed first correct member. -/
theorem firstCorrect_rename (renamable : space.grammar.Renamable fresh examples)
    (typed : space.grammar.TypedPool pool) :
    Agree (fun report renamed => renamed = report.map (Candidate.rename fresh))
      (firstCorrect examples pool counters)
      (firstCorrect (examples.map (Example.rename fresh)) (pool.map (Candidate.rename fresh))
        counters) := by
  induction pool generalizing counters with
  | nil => exact .ok rfl
  | cons candidate pool ih =>
    have rest : space.grammar.TypedPool pool := fun other inside =>
      typed other (List.mem_cons_of_mem candidate inside)
    rw [List.map_cons, firstCorrect, firstCorrect,
      renamable.isCorrect_eq (typed candidate List.mem_cons_self)]
    refine .bind_same fun counted => ?_
    refine .bind_same fun verdict => ?_
    cases verdict with
    | true => exact .ok rfl
    | false => exact ih rest

/-- A search over levels from a renamed pool finds the renamed candidate. -/
theorem searchLevels_rename (renamable : space.grammar.Renamable fresh examples)
    (typed : space.grammar.TypedPool pool) :
    Agree (fun report renamed => renamed = report.map (Candidate.rename fresh))
      (searchLevels space examples poolLimit rounds pool counters)
      (searchLevels (space.rename fresh) (examples.map (Example.rename fresh)) poolLimit rounds
        (pool.map (Candidate.rename fresh)) counters) := by
  induction rounds generalizing pool counters with
  | zero => exact .ok rfl
  | succ rounds ih =>
    refine (growLevel_rename renamable typed).bind_image fun report grown => ?_
    obtain ⟨next, later⟩ := report
    cases next with
    | none => exact .ok rfl
    | some next =>
      have advanced := typedPool_of_growLevel typed renamable.bound grown
      refine (firstCorrect_rename renamable advanced).bind_image fun checked _ => ?_
      obtain ⟨found, counted⟩ := checked
      cases found with
      | none => exact ih advanced
      | some candidate => exact .ok rfl

/-- An enumerative search over renamed terminals finds the renamed candidate. -/
theorem enumerativeSearch_rename (renamable : space.grammar.Renamable fresh examples) :
    Agree (fun report renamed => renamed = report.map (Candidate.rename fresh))
      (enumerativeSearch space examples maxLevel poolLimit)
      (enumerativeSearch (space.rename fresh) (examples.map (Example.rename fresh)) maxLevel
        poolLimit) := by
  have same : (space.rename fresh).grammar.terminals =
    space.grammar.terminals.map (Candidate.rename fresh) := terminals_rename space.grammar
  rw [enumerativeSearch, enumerativeSearch, same]
  exact searchLevels_rename renamable (Grammar.typedPool_terminals space.grammar)

end SearchSpace

variable {config : SearchConfig} {grammar : Grammar} {scored : List Scored} {uncovered : Mask}
  {start : Counters}

/-- The best of renamed entries is the renamed best entry. -/
theorem bestFor_rename (scored : List Scored) (uncovered : Mask) :
    Agree (fun best renamed => renamed = best.map (Scored.rename fresh))
      (bestFor scored uncovered) (bestFor (scored.map (Scored.rename fresh)) uncovered) := by
  have looks : ∀ best : Option (Scored × Nat),
      Agree (fun found renamed => renamed = found.map fun pair => (pair.1.rename fresh, pair.2))
        (bestFrom uncovered best scored)
        (bestFrom uncovered (best.map fun pair => (pair.1.rename fresh, pair.2))
          (scored.map (Scored.rename fresh))) := by
    induction scored with
    | nil => exact fun best => .ok rfl
    | cons entry scored ih =>
      intro best
      have gains : ((best.map fun pair => (pair.1.rename fresh, pair.2)).map Prod.snd).getD 0 =
          (best.map Prod.snd).getD 0 := by
        cases best <;> rfl
      rw [List.map_cons, bestFrom, bestFrom, gains]
      refine .bind_same fun gain => ?_
      split
      · exact ih (some (entry, gain))
      · exact ih best
  refine (looks none).bind_image fun best _ => ?_
  cases best <;> exact .ok rfl

/-- The candidates that are scored over a renamed grammar are the renamed ones. -/
theorem score_rename (renamable : grammar.Renamable fresh examples) :
    Agree (fun report renamed => renamed = report.map (List.map (Scored.rename fresh)))
      (score config grammar examples counters)
      (score config (grammar.rename fresh) (examples.map (Example.rename fresh)) counters) := by
  have spaceRenamable : (config.space grammar).grammar.Renamable fresh examples := renamable
  have typed : (config.space grammar).grammar.TypedPool grammar.terminals :=
    Grammar.typedPool_terminals grammar
  rw [score, score, SearchSpace.terminals_rename]
  refine (SearchSpace.growLevels_rename spaceRenamable typed).bind_image fun report grown => ?_
  obtain ⟨pool, leveled⟩ := report
  cases pool with
  | none => exact .ok rfl
  | some pool =>
    have poolTyped : grammar.TypedPool pool :=
      SearchSpace.typedPool_of_growLevels typed spaceRenamable.bound grown
    have selected : (pool.map (Candidate.rename fresh)).filter (fun candidate =>
        candidate.ty = .int) =
        (pool.filter fun candidate => candidate.ty = .int).map (Candidate.rename fresh) := by
      rw [List.filter_map]
      simp only [Function.comp_def, Candidate.ty_rename]
    simp only [Report.map, Option.map_some, Grammar.ofType_eq poolTyped.declaresHeads,
      Grammar.ofType_eq (Grammar.TypedPool.rename poolTyped).declaresHeads, ok_bind, selected,
      List.length_map, List.mapM_map]
    refine .bind_same fun counted => ?_
    have each : ∀ candidate ∈ pool.filter fun candidate => candidate.ty = .int,
        Agree (fun entry renamed => renamed = Scored.rename fresh entry)
          (do return Scored.mk candidate (← candidate.mask examples))
          (do
            let mask ← (candidate.rename fresh).mask (examples.map (Example.rename fresh))
            return Scored.mk (candidate.rename fresh) mask) := by
      intro candidate inside
      rw [renamable.mask_eq (poolTyped candidate (List.mem_of_mem_filter inside))]
      refine .bind_same fun mask => ?_
      exact .ok rfl
    refine (Agree.mapM each).bind fun entries renamed same => ?_
    have mapped : renamed = entries.map (Scored.rename fresh) := by
      rw [← List.forall₂_eq_eq_eq, List.forall₂_map_right_iff]
      exact same.flip.imp fun _ _ => id
    rw [mapped]
    exact .ok rfl

/-- Examples for a condition are renamed with the examples. -/
theorem separatorExamples_rename (examples : List Example) (mask : Mask) :
    separatorExamples (examples.map (Example.rename fresh)) mask =
      (separatorExamples examples mask).map (Example.rename fresh) := by
  rw [separatorExamples, separatorExamples, List.zipWith_map_left, List.map_zipWith]
  rfl

/-- Examples for a condition are read as the examples. -/
theorem Grammar.Renamable.separatorExamples (renamable : grammar.Renamable fresh examples)
    (mask : Mask) : grammar.Renamable fresh (separatorExamples examples mask) := by
  refine ⟨boundBy_separatorExamples renamable.bound mask, fun case inside name declared => ?_⟩
  obtain ⟨bit, original, within, rfl⟩ := exists_of_mem_separatorExamples inside
  exact renamable.view original within name declared

/-- Renamed pieces are merged under the renamed condition. -/
theorem unify_rename {first second : Piece} (renamable : grammar.Renamable fresh examples) :
    Agree (fun report renamed => renamed = report.map (Piece.rename fresh))
      (unify config grammar examples first second counters)
      (unify config (grammar.rename fresh) (examples.map (Example.rename fresh))
        (first.rename fresh) (second.rename fresh) counters) := by
  have labelled : (config.separatorSpace grammar).grammar.Renamable fresh
    (separatorExamples examples first.mask) := renamable.separatorExamples first.mask
  rw [unify, unify, show (first.rename fresh).mask = first.mask from rfl,
    separatorExamples_rename]
  refine (SearchSpace.enumerativeSearch_rename labelled).bind_image fun report _ => ?_
  obtain ⟨found, part⟩ := report
  refine .bind_same fun recorded => ?_
  refine .bind_same fun absorbed => ?_
  cases found with
  | none => exact .ok rfl
  | some separator =>
    refine .bind_same fun mask => ?_
    refine separator.compile_rename.bind_image fun condition _ => ?_
    exact .ok rfl

namespace Stage

variable {stage : Stage}

/-- A step from a renamed stage leads to the renamed stage, or ends the run alike. A run that ends
has covered every example, and so has the renamed run, so both programs pass the last check. -/
theorem step_rename (renamable : grammar.Renamable fresh examples)
    (sound : stage.Sound config grammar examples scored start)
    (soundThere : (stage.rename fresh).Sound config (grammar.rename fresh)
      (examples.map (Example.rename fresh)) (scored.map (Scored.rename fresh)) start) :
    Agree (Transition.Matched
        (fun following later partner later' => partner = following.rename fresh ∧ later' = later)
        fun report renamed => renamed = report.map (Expr.rename fresh))
      (stage.step config grammar examples scored counters)
      ((stage.rename fresh).step config (grammar.rename fresh)
        (examples.map (Example.rename fresh)) (scored.map (Scored.rename fresh)) counters) := by
  cases stage with
  | searching collected uncovered =>
    rw [rename, step, step]
    by_cases covers : uncovered.count = 0
    · rw [if_pos covers, if_pos covers]
      exact .ok (.next ⟨rfl, rfl⟩)
    · rw [if_neg covers, if_neg covers]
      refine (bestFor_rename scored uncovered).bind_image fun best _ => ?_
      cases best with
      | none => exact .ok (.stop rfl)
      | some entry =>
        refine entry.candidate.compile_rename.bind_image fun program _ => ?_
        have more : collected.map (Piece.rename fresh) ++
            [Piece.mk (program.rename fresh) entry.mask] =
              (collected ++ [Piece.mk program entry.mask]).map (Piece.rename fresh) := by
          rw [List.map_append]
          rfl
        have masks : ((collected ++ [Piece.mk program entry.mask]).map (Piece.rename fresh)).map
            Piece.mask = (collected ++ [Piece.mk program entry.mask]).map Piece.mask := by
          rw [List.map_map]
          rfl
        simp only [Scored.rename, more, masks, List.length_map]
        refine .bind_same fun solved => ?_
        exact .ok (.next ⟨rfl, rfl⟩)
  | covered pieces =>
    cases pieces with
    | nil => exact .ok (.stop rfl)
    | cons piece rest => exact .ok (.next ⟨rfl, rfl⟩)
  | unifying merged rest =>
    cases rest with
    | nil => exact .ok (.next ⟨rfl, rfl⟩)
    | cons piece rest =>
      refine (unify_rename renamable).bind_image fun report _ => ?_
      obtain ⟨joined, later⟩ := report
      cases joined with
      | none => exact .ok (.stop rfl)
      | some joined => exact .ok (.next ⟨rfl, rfl⟩)
  | done piece =>
    obtain ⟨full, exact⟩ := sound
    obtain ⟨fullThere, exactThere⟩ := soundThere
    have correct := Expr.isCorrect_of_mask_full (full ▸ exact)
    have correctThere := Expr.isCorrect_of_mask_full (fullThere ▸ exactThere)
    rw [rename, step, step, full, fullThere, Mask.isFull_full, Mask.isFull_full, if_pos rfl,
      if_pos rfl, correct, correctThere]
    exact .ok (.stop rfl)

/-- Whether two runs have reached stages of which the second is the first renamed. -/
structure Renamed (config : SearchConfig) (grammar : Grammar) (fresh : String → String)
    (examples : List Example) (scored : List Scored) (start : Counters) (stage : Stage)
    (counters : Counters) (renamed : Stage) (counters' : Counters) : Prop where
  /-- The second stage is the first renamed. -/
  stages : renamed = stage.rename fresh
  /-- The runs have counted the same. -/
  counted : counters' = counters
  /-- The first run reaches its stage. -/
  reached : Reached config grammar examples scored start stage counters
  /-- The renamed run reaches its stage. -/
  reachedThere : Reached config (grammar.rename fresh) (examples.map (Example.rename fresh))
    (scored.map (Scored.rename fresh)) start renamed counters'

/-- Runs at stages of which one is the other renamed stay so, or end alike. -/
theorem Renamed.agree {renamed : Stage} {counters' : Counters}
    (renamable : grammar.Renamable fresh examples)
    (masked : ∀ entry ∈ scored, entry.candidate.mask examples = .ok entry.mask)
    (maskedThere : ∀ entry ∈ scored.map (Scored.rename fresh),
      entry.candidate.mask (examples.map (Example.rename fresh)) = .ok entry.mask)
    (both : Renamed config grammar fresh examples scored start stage counters renamed counters') :
    Agree (Transition.Matched (Renamed config grammar fresh examples scored start)
        fun report renamed => renamed = report.map (Expr.rename fresh))
      (stage.step config grammar examples scored counters)
      (renamed.step config (grammar.rename fresh) (examples.map (Example.rename fresh))
        (scored.map (Scored.rename fresh)) counters') := by
  obtain ⟨rfl, rfl, reached, reachedThere⟩ := both
  have sound := sound_of_reached masked reached
  have soundThere := sound_of_reached maskedThere reachedThere
  refine (step_rename renamable sound soundThere).returned.imp fun transition partner steps => ?_
  obtain ⟨transitions, here, there⟩ := steps
  cases transitions with
  | next stages => exact .next ⟨stages.1, stages.2, reached.step here, reachedThere.step there⟩
  | stop same => exact .stop same

end Stage

/-- A unification search with renamed variables returns the renamed program. -/
theorem unificationSearch_rename (renamable : grammar.Renamable fresh examples) :
    Agree (fun report renamed => renamed = report.map (Expr.rename fresh))
      (unificationSearch config grammar examples)
      (unificationSearch config (grammar.rename fresh) (examples.map (Example.rename fresh))) := by
  refine (score_rename renamable).returned.bind fun report renamed both => ?_
  obtain ⟨rfl, scoring, scoringThere⟩ := both
  obtain ⟨result, start⟩ := report
  cases result with
  | none => exact .ok rfl
  | some scored =>
    have masked : ∀ entry ∈ scored, entry.candidate.mask examples = .ok entry.mask :=
      fun entry inside => mask_of_score scoring inside
    have maskedThere : ∀ entry ∈ scored.map (Scored.rename fresh),
        entry.candidate.mask (examples.map (Example.rename fresh)) = .ok entry.mask :=
      fun entry inside => mask_of_score scoringThere inside
    have initial : Stage.initial (examples.map (Example.rename fresh)) =
        (Stage.initial examples).rename fresh := by
      rw [Stage.initial, Stage.initial, Stage.rename, List.length_map]
      rfl
    have started : Stage.Renamed config grammar fresh examples scored start (.initial examples)
        start (.initial (examples.map (Example.rename fresh))) start :=
      ⟨initial, rfl, .initial, .initial⟩
    exact Stage.run_agree (fun _ _ _ _ both =>
      Stage.Renamed.agree renamable masked maskedThere both) _ _ started

/-- Renaming keeps apart what a problem declares when it does not confuse two declared names. -/
theorem Problem.renamable (problem : Problem)
    (injective : ∀ left ∈ problem.grammar.names, ∀ right ∈ problem.grammar.names,
      fresh left = fresh right → left = right) :
    problem.grammar.Renamable fresh problem.examples := by
  refine ⟨problem.boundBy, fun case inside name declared => Env.get?_rename ?_⟩
  intro other bound
  exact injective other ((problem.binds case inside other).mp bound) name declared

/-- Two problems, of which the second is the first renamed, have solutions of which the second is
the first renamed. -/
theorem Problem.solve_rename {problem renamed : Problem}
    (grammar : renamed.grammar = problem.grammar.rename fresh)
    (examples : renamed.examples = problem.examples.map (Example.rename fresh))
    (renamable : problem.grammar.Renamable fresh problem.examples) (strategy : Strategy) :
    Agree (fun report renamed => renamed = report.map (Expr.rename fresh))
      (problem.solve config strategy) (renamed.solve config strategy) := by
  cases strategy with
  | enumerative =>
    have spaceRenamable : (config.space problem.grammar).grammar.Renamable fresh
      problem.examples := renamable
    rw [solve, solve, grammar, examples]
    refine (SearchSpace.enumerativeSearch_rename spaceRenamable).bind_image fun report _ => ?_
    obtain ⟨found, counters⟩ := report
    cases found with
    | none => exact .ok rfl
    | some candidate =>
      refine candidate.compile_rename.bind_image fun program _ => ?_
      exact .ok rfl
  | unification =>
    rw [solve, solve, grammar, examples]
    exact unificationSearch_rename renamable

/-- A valid problem stays valid when its variables are renamed. -/
theorem Problem.exists_validate_rename {names : List String} {constants : List Int64}
    {problem : Problem} (valid : Problem.validate names constants examples = .ok problem)
    (injective : ∀ left ∈ names, ∀ right ∈ names, fresh left = fresh right → left = right) :
    ∃ renamed, Problem.validate (names.map fresh) constants (examples.map (Example.rename fresh)) =
      .ok renamed := by
  obtain ⟨grammar, rfl⟩ := parts_of_validate valid
  have nonempty := problem.examples_ne_nil
  have terminals := problem.terminals
  have nodup := problem.nodup
  have binds := problem.binds
  rw [grammar] at terminals nodup binds
  refine exists_validate ?_ ?_ ?_ ?_
  · rwa [ne_eq, List.map_eq_nil_iff]
  · rwa [List.map_eq_nil_iff]
  · exact nodup.map_on injective
  · intro case inside name
    obtain ⟨original, within, rfl⟩ := List.mem_map.mp inside
    rw [Example.rename, Env.mem_names_rename_iff, List.mem_map]
    exact exists_congr fun before => and_congr_left fun _ => binds original within before

end

/-- The spelling of variables is irrelevant. Rename the variables of a valid problem, in the
declarations and in the inputs of the examples, without confusing two of them. Then either
strategy returns the renamed program with the same counters, or none with the same counters, and
it is refused, or faults, exactly when the original is. -/
theorem synthesize_rename (strategy : Strategy) (config : SearchConfig) (names : List String)
    (constants : List Int64) (examples : List Example) (problem : Problem)
    (valid : Problem.validate names constants examples = .ok problem) (fresh : String → String)
    (injective : ∀ left ∈ names, ∀ right ∈ names, fresh left = fresh right → left = right) :
    synthesize strategy config (names.map fresh) constants (examples.map (Example.rename fresh)) =
      (synthesize strategy config names constants examples).map
        (Except.map (Report.map (Expr.rename fresh))) := by
  obtain ⟨renamed, validThere⟩ := Problem.exists_validate_rename valid injective
  obtain ⟨grammar, rfl⟩ := Problem.parts_of_validate valid
  obtain ⟨grammarThere, examplesThere⟩ := Problem.parts_of_validate validThere
  have declared : ∀ left ∈ problem.grammar.names, ∀ right ∈ problem.grammar.names,
      fresh left = fresh right → left = right := by
    rw [grammar]
    exact injective
  have renames : renamed.grammar = problem.grammar.rename fresh := by
    rw [grammarThere, grammar]
    rfl
  rw [synthesize, synthesize]
  by_cases zero : config.maxLevel = 0
  · rw [if_pos zero, if_pos zero]
    rfl
  · have solved : renamed.solve config strategy =
        (problem.solve config strategy).map (Report.map (Expr.rename fresh)) :=
      (Problem.solve_rename renames examplesThere (problem.renamable declared) strategy).eq_map
    rw [if_neg zero, if_neg zero, valid, validThere]
    simp only [solved]
    cases problem.solve config strategy <;> rfl

namespace Smaller

/-- The two variables swap their names. -/
def swap (name : String) : String := if name = "x" then "y" else "x"

/-- The smaller of two numbers is found under swapped names, as the swapped program. -/
theorem synthesize_swapped :
    (∃ valid, Problem.validate ["x", "y"] [] examples = .ok valid) ∧
    (∀ left ∈ ["x", "y"], ∀ right ∈ ["x", "y"], swap left = swap right → left = right) ∧
    synthesize .unification config ["y", "x"] [] (examples.map (Example.rename swap)) =
      .ok (.ok ⟨some (.ite (.binary .lt (.var "y") (.var "x")) (.var "y") (.var "x")),
        finish⟩) := by
  obtain ⟨valid, validated⟩ : ∃ valid, Problem.validate ["x", "y"] [] examples = .ok valid :=
    Problem.exists_validate problem.examples_ne_nil problem.terminals problem.nodup problem.binds
  have injective : ∀ left ∈ ["x", "y"], ∀ right ∈ ["x", "y"],
      swap left = swap right → left = right := by decide
  have renamed := synthesize_rename .unification config ["x", "y"] [] examples valid validated
    swap injective
  rw [synthesize_eq] at renamed
  exact ⟨⟨valid, validated⟩, injective, renamed⟩

end Smaller

end ProgramSynthesis
