import ProgramSynthesis.Proofs.Cover
import ProgramSynthesis.Proofs.Unifying

/-!
# The stages of a run

What holds of every stage that a run of the unification search reaches. While pieces are
picked, each mask says exactly where its program is correct and marks an example that no
earlier mask marks. While pieces are merged, the merged mask is the union of the masks merged
so far and says exactly where the merged program is correct. A finished piece is correct on
every example.
-/

namespace ProgramSynthesis

/-- The stages that a run over scored candidates reaches, with the counters it has then. -/
inductive Stage.Reached (config : SearchConfig) (grammar : Grammar) (examples : List Example)
    (scored : List Scored) (start : Counters) : Stage → Counters → Prop where
  /-- A run starts before the first pick. -/
  | initial : Reached config grammar examples scored start (initial examples) start
  /-- A step that does not end the run leads on. -/
  | step {stage counters following later}
    (reached : Reached config grammar examples scored start stage counters)
    (stepped : stage.step config grammar examples scored counters = .ok (.next following later)) :
    Reached config grammar examples scored start following later

/-- Pieces as they are picked: the mask of each says where its program is correct, and each
marks an example that no earlier one marks. -/
structure Picked (examples : List Example) (pieces : List Piece) : Prop where
  /-- The mask of a piece is that of its program. -/
  exact : ∀ piece ∈ pieces, piece.program.mask examples = .ok piece.mask
  /-- A piece marks an example that no earlier one marks. -/
  fresh : ∀ earlier piece later, pieces = earlier ++ piece :: later →
    ∃ index, piece.mask.marks index = true ∧ ∀ before ∈ earlier, before.mask.marks index = false

/-- Picked pieces that leave no example uncovered. -/
structure Covering (examples : List Example) (pieces : List Piece) : Prop
    extends Picked examples pieces where
  /-- The masks together mark every example. -/
  union : Mask.unionAll examples.length (pieces.map Piece.mask) = .ok (.full examples.length)

/-- The first of some covering pieces, merged into one. -/
structure Merged (examples : List Example) (merged : Piece) (folded rest : List Piece) : Prop where
  /-- The merged pieces and the rest cover the examples. -/
  covering : Covering examples (folded ++ rest)
  /-- Some piece has been merged. -/
  inhabited : folded ≠ []
  /-- The mask is the union of the masks of the merged pieces. -/
  union : Mask.unionAll examples.length (folded.map Piece.mask) = .ok merged.mask
  /-- The mask is that of the merged program. -/
  exact : merged.program.mask examples = .ok merged.mask

/-- What is true of a stage that a run reaches. -/
def Stage.Sound (config : SearchConfig) (grammar : Grammar) (examples : List Example)
    (scored : List Scored) (start : Counters) : Stage → Prop
  | searching collected uncovered =>
    (searching collected uncovered).Exact examples ∧ Picked examples collected
  | covered pieces => Covering examples pieces
  | unifying merged rest => ∃ folded before,
    Reached config grammar examples scored start (covered (folded ++ rest)) before ∧
      Merged examples merged folded rest
  | done piece =>
    piece.mask = .full examples.length ∧ piece.program.mask examples = .ok piece.mask

section

variable {config : SearchConfig} {grammar : Grammar} {examples : List Example}
  {scored : List Scored} {start counters later : Counters} {stage following : Stage}

/-- A step that does not end the run leads to the stage that the run goes on from. -/
theorem Stage.run_eq_of_next (exact : stage.Exact examples)
    (stepped : stage.step config grammar examples scored counters = .ok (.next following later)) :
    stage.run config grammar examples scored counters exact =
      following.run config grammar examples scored later
        (exact_of_moves (moves_of_step stepped)) := by
  rw [Stage.run]
  split <;> rename_i outcome <;> rw [stepped] at outcome <;> cases outcome
  rfl

/-- A step that ends the run gives its report. -/
theorem Stage.run_eq_of_stop {report : Report Expr} (exact : stage.Exact examples)
    (stepped : stage.step config grammar examples scored counters = .ok (.stop report)) :
    stage.run config grammar examples scored counters exact = .ok report := by
  rw [Stage.run]
  split <;> rename_i outcome <;> rw [stepped] at outcome <;> cases outcome
  rfl

/-- A step that faults is the fault of the run. -/
theorem Stage.run_eq_of_fault {fault : Fault} (exact : stage.Exact examples)
    (stepped : stage.step config grammar examples scored counters = .error fault) :
    stage.run config grammar examples scored counters exact = .error fault := by
  rw [Stage.run]
  split <;> rename_i outcome <;> rw [stepped] at outcome <;> cases outcome
  rfl

/-- A run goes on from every stage that it reaches. -/
theorem Stage.Reached.run_eq
    (reached : Reached config grammar examples scored start stage counters) :
    ∃ exact : stage.Exact examples,
      (Stage.initial examples).run config grammar examples scored start (exact_initial examples) =
        stage.run config grammar examples scored counters exact := by
  induction reached with
  | initial => exact ⟨exact_initial examples, rfl⟩
  | @step stage counters following later _ stepped ih =>
    obtain ⟨exact, same⟩ := ih
    exact ⟨exact_of_moves (moves_of_step stepped), same.trans (run_eq_of_next exact stepped)⟩

/-- A new pick that solves an uncovered example extends the pieces picked so far. -/
theorem Picked.append {pieces : List Piece} {solved : Mask} {piece : Piece} {gain : Nat}
    (picked : Picked examples pieces)
    (unioned : Mask.unionAll examples.length (pieces.map Piece.mask) = .ok solved)
    (masked : piece.program.mask examples = .ok piece.mask)
    (counted : piece.mask.countWithin solved.complement = .ok gain) (positive : 0 < gain) :
    Picked examples (pieces ++ [piece]) := by
  refine ⟨fun other inside => ?_, fun earlier other later same => ?_⟩
  · rcases List.mem_append.mp inside with old | new
    · exact picked.exact other old
    · rw [List.mem_singleton.mp new]
      exact masked
  · rcases List.eq_nil_or_concat later with rfl | ⟨init, last, rfl⟩
    · obtain ⟨rfl, new⟩ := List.append_inj' same rfl
      cases new
      obtain ⟨index, marked, within⟩ := Mask.exists_marks_of_countWithin counted positive
      have inside : index < solved.length :=
        Mask.length_complement solved ▸ Mask.lt_length_of_marks within
      rw [Mask.marks_complement inside, Bool.not_eq_true', Mask.marks_of_unionAll unioned,
        List.any_map, List.any_eq_false] at within
      exact ⟨index, marked, fun before old => Bool.eq_false_iff.mpr (within before old)⟩
    · rw [List.concat_eq_append, ← List.cons_append, ← List.append_assoc] at same
      exact picked.fresh earlier other init (List.append_inj_left' same rfl)

namespace Merged

variable {merged : Piece} {folded rest : List Piece}

/-- The pieces that are merged first solve some example. -/
theorem marked (held : Merged examples merged folded rest) : true ∈ merged.mask.bits := by
  obtain ⟨first, tail, rfl⟩ := List.exists_cons_of_ne_nil held.inhabited
  obtain ⟨index, marks, _⟩ := held.covering.fresh [] first (tail ++ rest) rfl
  have joined : merged.mask.marks index = true := by
    rw [Mask.marks_of_unionAll held.union, List.map_cons, List.any_cons, marks, Bool.true_or]
  exact Mask.mem_bits_of_marks (Mask.lt_length_of_marks joined) joined

/-- The merged piece and the next one are over the same examples. -/
theorem same_length {piece : Piece} (held : Merged examples merged folded (piece :: rest)) :
    merged.mask.length = piece.mask.length := by
  rw [Expr.length_of_mask held.exact, Expr.length_of_mask (held.covering.exact piece (by simp))]

/-- A piece that waits solves an example that those merged so far do not. -/
theorem unmarked (held : Merged examples merged folded rest) (waiting : rest ≠ []) :
    false ∈ merged.mask.bits := by
  obtain ⟨next, tail, rfl⟩ := List.exists_cons_of_ne_nil waiting
  obtain ⟨index, marks, before⟩ := held.covering.fresh folded next tail rfl
  have missed : merged.mask.marks index = false := by
    rw [Mask.marks_of_unionAll held.union, List.any_map, List.any_eq_false]
    exact fun piece inside => Bool.eq_false_iff.mp (before piece inside)
  exact Mask.mem_bits_of_marks (held.same_length ▸ Mask.lt_length_of_marks marks) missed

/-- The next piece is merged under a condition that is correct for those before it. -/
theorem append {joined piece : Piece} (held : Merged examples merged folded (piece :: rest))
    (unified : unify config grammar examples merged piece counters = .ok ⟨some joined, later⟩) :
    Merged examples joined (folded ++ [piece]) rest := by
  obtain ⟨condition, known, union, program⟩ := conditionFor_of_unify unified
  have correct := isCorrect_of_conditionFor known
  have masked := held.covering.exact piece (by simp)
  constructor
  · rw [List.append_assoc, List.singleton_append]
    exact held.covering
  · simp
  · rw [List.map_append, List.map_singleton, Mask.unionAll_append_singleton, held.union, ok_bind,
      union]
  · rw [program]
    exact mask_ite_of_separates correct held.exact masked union

/-- With no piece waiting, the merged piece solves every example. -/
theorem mask_eq_full (held : Merged examples merged folded []) :
    merged.mask = .full examples.length := by
  have union := held.covering.union
  rw [List.append_nil, held.union] at union
  exact Except.ok.inj union

end Merged

namespace Stage

/-- What is true of a reached stage stays true after a move. -/
theorem sound_of_moves
    (masked : ∀ entry ∈ scored, entry.candidate.mask examples = .ok entry.mask)
    (reached : Reached config grammar examples scored start stage counters)
    (sound : stage.Sound config grammar examples scored start)
    (moved : Moves config grammar examples scored stage counters following later) :
    following.Sound config grammar examples scored start := by
  cases moved with
  | cover solved =>
    obtain ⟨⟨before, unioned, rfl⟩, picked⟩ := sound
    have whole : before = .full examples.length :=
      Mask.eq_full_of_count_complement (Mask.length_of_unionAll unioned).1 solved
    exact ⟨picked, whole ▸ unioned⟩
  | pick best compiled joined =>
    obtain ⟨⟨before, unioned, rfl⟩, picked⟩ := sound
    obtain ⟨gain, counted, positive⟩ := gain_of_bestFor best
    have exact := masked _ (mem_of_bestFor best)
    rw [Candidate.mask, compiled, ok_bind] at exact
    exact ⟨⟨_, joined, rfl⟩, picked.append unioned exact counted positive⟩
  | @start piece rest _ =>
    have exact := sound.exact piece List.mem_cons_self
    have union := Mask.unionAll_singleton (Expr.length_of_mask exact)
    exact ⟨[piece], counters, reached, sound, List.cons_ne_nil _ _, union, exact⟩
  | @merge merged piece joined rest _ _ unified =>
    obtain ⟨folded, before, known, held⟩ := sound
    refine ⟨folded ++ [piece], before, ?_, held.append unified⟩
    rw [List.append_assoc, List.singleton_append]
    exact known
  | finish =>
    obtain ⟨folded, before, known, held⟩ := sound
    exact ⟨held.mask_eq_full, held.exact⟩

/-- Nothing is picked at the start of a run. -/
theorem sound_initial : (initial examples).Sound config grammar examples scored start := by
  refine ⟨exact_initial examples, ⟨?_, ?_⟩⟩
  · intro piece inside
    cases inside
  · intro earlier piece later same
    simp at same

/-- Every stage that a run reaches is sound. -/
theorem sound_of_reached
    (masked : ∀ entry ∈ scored, entry.candidate.mask examples = .ok entry.mask)
    (reached : Reached config grammar examples scored start stage counters) :
    stage.Sound config grammar examples scored start := by
  induction reached with
  | initial => exact sound_initial
  | step reached stepped ih => exact sound_of_moves masked reached ih (moves_of_step stepped)

/-- Masks stay exact over a whole run. While pieces are picked, the uncovered examples are those
outside the union of the collected masks, each mask is that of its program, and each marks an
example that no earlier one marks. While pieces are merged, the merged mask is the union of the
masks of those merged so far and the mask of the merged program; it marks some example, and as
long as a piece waits it leaves one unmarked, so the next condition must be true on some example
and false on another. A finished piece marks every example. -/
theorem masks_of_reached (config : SearchConfig) (grammar : Grammar) (examples : List Example)
    (scored : List Scored) (start counters : Counters) (stage : Stage)
    (scoring : score config grammar examples .zero = .ok ⟨some scored, start⟩)
    (reached : Reached config grammar examples scored start stage counters) :
    match stage with
    | searching collected uncovered =>
      (∃ solved, Mask.unionAll examples.length (collected.map Piece.mask) = .ok solved ∧
        uncovered = solved.complement) ∧
      (∀ piece ∈ collected, piece.program.mask examples = .ok piece.mask) ∧
      ∀ earlier piece later, collected = earlier ++ piece :: later → ∃ index,
        piece.mask.marks index = true ∧ ∀ before ∈ earlier, before.mask.marks index = false
    | covered pieces =>
      Mask.unionAll examples.length (pieces.map Piece.mask) = .ok (.full examples.length)
    | unifying merged rest =>
      (∃ folded before,
        Reached config grammar examples scored start (covered (folded ++ rest)) before ∧
        Mask.unionAll examples.length (folded.map Piece.mask) = .ok merged.mask) ∧
      merged.program.mask examples = .ok merged.mask ∧
      (∀ index case, examples[index]? = some case →
        (merged.mask.marks index = true ↔ merged.program.eval case.input = .ok case.output)) ∧
      true ∈ merged.mask.bits ∧
      (rest ≠ [] → false ∈ merged.mask.bits ∧
        (∃ case ∈ separatorExamples examples merged.mask, case.output = .bool true) ∧
        ∃ case ∈ separatorExamples examples merged.mask, case.output = .bool false)
    | done piece => piece.mask = .full examples.length := by
  have sound := sound_of_reached (fun _ inside => mask_of_score scoring inside) reached
  cases stage with
  | searching collected uncovered =>
    obtain ⟨exact, picked⟩ := sound
    exact ⟨exact, picked.exact, picked.fresh⟩
  | covered pieces => exact sound.union
  | unifying merged rest =>
    obtain ⟨folded, before, known, held⟩ := sound
    have counted := Expr.length_of_mask held.exact
    refine ⟨⟨folded, before, known, held.union⟩, held.exact,
      fun index case found => Expr.marks_iff_of_mask held.exact found, held.marked, ?_⟩
    intro waiting
    have unmarked := held.unmarked waiting
    exact ⟨unmarked, exists_separatorExample counted held.marked,
      exists_separatorExample counted unmarked⟩
  | done piece => exact sound.1

end Stage

end

namespace Smaller

/-- Pieces are picked from the terminals alone. -/
def config : SearchConfig := { SearchConfig.standard with coverRounds := 0 }

/-- Two variables. -/
def grammar : Grammar := ⟨["x", "y"], []⟩

/-- The smaller of two numbers is asked for, once in either place. -/
def examples : List Example :=
  [⟨.ofList [("x", 1), ("y", 2)], .int 1⟩, ⟨.ofList [("x", 5), ("y", 3)], .int 3⟩]

/-- Each variable solves one example. -/
def scored : List Scored :=
  [⟨.leaf (.var "x"), ⟨[true, false]⟩⟩, ⟨.leaf (.var "y"), ⟨[false, true]⟩⟩]

/-- Both variables have been checked. -/
def start : Counters := { Counters.zero with checked := 2 }

/-- The first piece is the first variable. -/
def first : Piece := ⟨.var "x", ⟨[true, false]⟩⟩

/-- The second piece is the second variable. -/
def second : Piece := ⟨.var "y", ⟨[false, true]⟩⟩

/-- The first variable is about to be merged with the second. -/
theorem reached_unifying : Stage.Reached config grammar examples scored start
    (.unifying first [second]) start := by
  have picked : Stage.Reached config grammar examples scored start
      (.searching [first] ⟨[false, true]⟩) start := .step .initial (by decide +kernel)
  have both : Stage.Reached config grammar examples scored start
      (.searching [first, second] ⟨[false, false]⟩) start := .step picked (by decide +kernel)
  have covers : Stage.Reached config grammar examples scored start
      (.covered [first, second]) start := .step both (by decide +kernel)
  exact .step covers (by decide +kernel)

/-- The condition that separates the variables is asked to be true on one example and false on
the other. -/
theorem masks_of_reached_unifying :
    score config grammar examples .zero = .ok ⟨some scored, start⟩ ∧
    Stage.Reached config grammar examples scored start (.unifying first [second]) start ∧
    (∃ folded before,
      Stage.Reached config grammar examples scored start (.covered (folded ++ [second])) before ∧
      Mask.unionAll examples.length (folded.map Piece.mask) = .ok first.mask) ∧
    first.program.mask examples = .ok first.mask ∧
    (∀ index case, examples[index]? = some case →
      (first.mask.marks index = true ↔ first.program.eval case.input = .ok case.output)) ∧
    true ∈ first.mask.bits ∧
    ([second] ≠ [] → false ∈ first.mask.bits ∧
      (∃ case ∈ separatorExamples examples first.mask, case.output = .bool true) ∧
      ∃ case ∈ separatorExamples examples first.mask, case.output = .bool false) := by
  have scoring : score config grammar examples .zero = .ok ⟨some scored, start⟩ := by
    decide +kernel
  exact ⟨scoring, reached_unifying, Stage.masks_of_reached config grammar examples scored start
    start (.unifying first [second]) scoring reached_unifying⟩

end Smaller

end ProgramSynthesis
