import ProgramSynthesis.Search.Cover
import ProgramSynthesis.Search.Enumerative

/-!
# Synthesis by unification

Pieces that together cover the examples become one program by conditionals: two pieces are
merged under a condition that is true exactly on the examples of the first, and the merged
piece is merged with the next. The search is a machine with four stages. After every pick the
uncovered examples are computed afresh from the masks picked so far; as long as they are
exactly those, every step lowers the measure of its stage, so a run ends.
-/

namespace ProgramSynthesis

/-- A program and the examples it is known to solve. -/
structure Piece where
  /-- The program. -/
  program : Expr
  /-- The examples it solves. -/
  mask : Mask
deriving DecidableEq, Repr

/-- The examples that ask for a condition true exactly on the marked examples. -/
def separatorExamples (examples : List Example) (mask : Mask) : List Example :=
  examples.zipWith (fun case bit => case.relabel (.bool bit)) mask.bits

/-- Merge two pieces under a condition that holds exactly on the examples of the first; none
when no such condition is found. -/
def unify (config : SearchConfig) (grammar : Grammar) (examples : List Example)
    (first second : Piece) (counters : Counters) : Except Fault (Report Piece) := do
  let found ← enumerativeSearch (config.separatorSpace grammar)
    (separatorExamples examples first.mask) config.maxLevel config.poolLimit
  let counters ← (← counters.recordSeparator).absorb found.counters
  match found.result with
  | none => return ⟨none, counters⟩
  | some separator =>
    let mask ← first.mask.union second.mask
    return ⟨some ⟨.ite (← separator.compile) first.program second.program, mask⟩, counters⟩

/-- Where a run stands. -/
inductive Stage where
  /-- Pieces are being picked until no example is left uncovered. -/
  | searching (collected : List Piece) (uncovered : Mask)
  /-- The picked pieces cover every example. -/
  | covered (pieces : List Piece)
  /-- The first pieces are merged into one, the others wait. -/
  | unifying (merged : Piece) (rest : List Piece)
  /-- One piece is left. -/
  | done (piece : Piece)
deriving DecidableEq, Repr

namespace Stage

/-- Before the first pick every example is uncovered. -/
def initial (examples : List Example) : Stage := searching [] (.full examples.length)

/-- The uncovered examples are exactly those that no collected piece solves. -/
def Exact (examples : List Example) : Stage → Prop
  | searching collected uncovered => ∃ solved,
      Mask.unionAll examples.length (collected.map Piece.mask) = .ok solved ∧
        uncovered = solved.complement
  | _ => True

/-- An upper bound for the number of steps a run still takes. -/
def measure : Stage → Nat
  | searching collected uncovered => 2 * uncovered.count + collected.length + 3
  | covered pieces => pieces.length + 2
  | unifying _ rest => rest.length + 2
  | done _ => 1

end Stage

/-- What a step leads to: another stage, or the end of the run. -/
inductive Transition where
  /-- The run goes on. -/
  | next (stage : Stage) (counters : Counters)
  /-- The run ends with a program, or without one. -/
  | stop (report : Report Expr)
deriving DecidableEq, Repr

/-- One step of a run over scored candidates. A finished piece is checked once more: it must
cover every example, and its program must be correct on every example. -/
def Stage.step (config : SearchConfig) (grammar : Grammar) (examples : List Example)
    (scored : List Scored) (counters : Counters) : Stage → Except Fault Transition
  | searching collected uncovered =>
    if uncovered.count = 0 then
      .ok (.next (covered collected) counters)
    else do
      match ← bestFor scored uncovered with
      | none => return .stop ⟨none, counters⟩
      | some entry =>
        let collected := collected ++ [⟨← entry.candidate.compile, entry.mask⟩]
        let solved ← Mask.unionAll examples.length (collected.map Piece.mask)
        return .next (searching collected solved.complement) counters
  | covered [] => .ok (.stop ⟨none, counters⟩)
  | covered (piece :: rest) => .ok (.next (unifying piece rest) counters)
  | unifying merged [] => .ok (.next (done merged) counters)
  | unifying merged (piece :: rest) => do
    match ← unify config grammar examples merged piece counters with
    | ⟨none, counters⟩ => return .stop ⟨none, counters⟩
    | ⟨some merged, counters⟩ => return .next (unifying merged rest) counters
  | done piece =>
    if piece.mask.isFull then do
      if ← piece.program.isCorrect examples then
        return .stop ⟨some piece.program, counters⟩
      else
        .error (.wrongOnCover piece.program)
    else
      .error .uncovered

/-- What a step that does not end the run can do. -/
inductive Stage.Moves (config : SearchConfig) (grammar : Grammar) (examples : List Example)
    (scored : List Scored) : Stage → Counters → Stage → Counters → Prop where
  /-- No example is left uncovered. -/
  | cover {collected uncovered counters} (solved : uncovered.count = 0) :
    Moves config grammar examples scored (searching collected uncovered) counters
      (covered collected) counters
  /-- The best entry is collected, and all collected masks are joined anew. -/
  | pick {collected uncovered counters entry program solved}
    (best : bestFor scored uncovered = .ok (some entry))
    (compiled : entry.candidate.compile = .ok program)
    (joined : Mask.unionAll examples.length
      ((collected ++ [Piece.mk program entry.mask]).map Piece.mask) = .ok solved) :
    Moves config grammar examples scored (searching collected uncovered) counters
      (searching (collected ++ [⟨program, entry.mask⟩]) solved.complement) counters
  /-- The first piece waits for the others. -/
  | start {piece rest counters} :
    Moves config grammar examples scored (covered (piece :: rest)) counters
      (unifying piece rest) counters
  /-- The next piece is merged with those before it. -/
  | merge {merged piece joined rest counters later}
    (unified : unify config grammar examples merged piece counters = .ok ⟨some joined, later⟩) :
    Moves config grammar examples scored (unifying merged (piece :: rest)) counters
      (unifying joined rest) later
  /-- No piece waits any more. -/
  | finish {merged counters} :
    Moves config grammar examples scored (unifying merged []) counters (done merged) counters

section

variable {config : SearchConfig} {grammar : Grammar} {examples : List Example}
  {scored : List Scored} {counters later : Counters} {stage following : Stage}

/-- A step that does not end the run is one of the moves. -/
theorem Stage.moves_of_step
    (stepped : stage.step config grammar examples scored counters = .ok (.next following later)) :
    Moves config grammar examples scored stage counters following later := by
  cases stage with
  | searching collected uncovered =>
    simp only [step] at stepped
    split at stepped
    · rename_i solved
      cases stepped
      exact .cover solved
    · simp only [bind, Except.bind] at stepped
      split at stepped
      · contradiction
      · rename_i best found
        cases best with
        | none => simp [pure, Except.pure] at stepped
        | some entry =>
          simp only at stepped
          split at stepped
          · contradiction
          · rename_i program compiled
            split at stepped
            · contradiction
            · rename_i solved joined
              cases stepped
              exact .pick found compiled joined
  | covered pieces =>
    cases pieces with
    | nil => simp [step] at stepped
    | cons piece rest =>
      cases stepped
      exact .start
  | unifying merged rest =>
    cases rest with
    | nil =>
      cases stepped
      exact .finish
    | cons piece rest =>
      simp only [step, bind, Except.bind] at stepped
      split at stepped
      · contradiction
      · rename_i report unified
        obtain ⟨result, counted⟩ := report
        cases result with
        | none => simp [pure, Except.pure] at stepped
        | some joined =>
          cases stepped
          exact .merge unified
  | done piece =>
    simp only [step] at stepped
    split at stepped
    · simp only [bind, Except.bind] at stepped
      split at stepped
      · contradiction
      · split at stepped <;> simp [pure, Except.pure] at stepped
    · contradiction

/-- Before the first pick no example is solved. -/
theorem Stage.exact_initial (examples : List Example) : (initial examples).Exact examples :=
  ⟨.empty examples.length, rfl, by simp [Mask.empty, Mask.full, Mask.complement]⟩

/-- After a move the uncovered examples are exactly the unsolved ones. -/
theorem Stage.exact_of_moves
    (moved : Moves config grammar examples scored stage counters following later) :
    following.Exact examples := by
  cases moved with
  | pick best compiled joined => exact ⟨_, joined, rfl⟩
  | _ => trivial

/-- A pick solves an uncovered example, so fewer stay uncovered. -/
theorem Stage.count_lt_of_pick {collected : List Piece} {uncovered solved : Mask}
    {entry : Scored} {program : Expr} (exact : (searching collected uncovered).Exact examples)
    (best : bestFor scored uncovered = .ok (some entry))
    (joined : Mask.unionAll examples.length
      ((collected ++ [Piece.mk program entry.mask]).map Piece.mask) = .ok solved) :
    solved.complement.count < uncovered.count := by
  obtain ⟨before, unioned, rfl⟩ := exact
  obtain ⟨gain, counted, positive⟩ := gain_of_bestFor best
  obtain ⟨_, gained⟩ := (Mask.countWithin_eq_ok_iff _ _ _).mp counted
  rw [List.map_append, List.map_singleton, Mask.unionAll_append_singleton, unioned] at joined
  have split := Mask.count_complement_union (show before.union entry.mask = .ok solved from joined)
  omega

/-- A move lowers the measure of the stage. -/
theorem Stage.measure_lt_of_moves (exact : stage.Exact examples)
    (moved : Moves config grammar examples scored stage counters following later) :
    following.measure < stage.measure := by
  cases moved with
  | cover _ =>
    simp only [measure]
    omega
  | pick best compiled joined =>
    have fewer := count_lt_of_pick exact best joined
    simp only [measure, List.length_append, List.length_singleton]
    omega
  | start => simp [measure]
  | merge unified => simp [measure]
  | finish => simp [measure]

end

/-- Step from a stage to the end of the run. -/
def Stage.run (config : SearchConfig) (grammar : Grammar) (examples : List Example)
    (scored : List Scored) (counters : Counters) (stage : Stage) (exact : stage.Exact examples) :
    Except Fault (Report Expr) :=
  match stepped : stage.step config grammar examples scored counters with
  | .error fault => .error fault
  | .ok (.stop report) => .ok report
  | .ok (.next following later) =>
    have moved := moves_of_step stepped
    have := measure_lt_of_moves exact moved
    following.run config grammar examples scored later (exact_of_moves moved)
termination_by stage.measure

/-- Cover the examples by pieces and unify them into one program. -/
def unificationSearch (config : SearchConfig) (grammar : Grammar) (examples : List Example) :
    Except Fault (Report Expr) := do
  match ← score config grammar examples .zero with
  | ⟨none, counters⟩ => return ⟨none, counters⟩
  | ⟨some scored, counters⟩ =>
    (Stage.initial examples).run config grammar examples scored counters
      (Stage.exact_initial examples)

end ProgramSynthesis
