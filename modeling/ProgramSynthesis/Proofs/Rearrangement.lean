import ProgramSynthesis.Proofs.Agreement
import ProgramSynthesis.Proofs.SameExamples
import ProgramSynthesis.Proofs.Safety

/-!
# Rearranged examples

A run of the unification search knows its examples by masks. Every mask comes from a test of
examples that sees only their view, so over rearranged examples each mask is rearranged in the
same way: it counts as much, and so do its unions and complements. The run then picks the same
candidates, asks for the same conditions, and ends with the same report.
-/

namespace ProgramSynthesis

/-- Whether two lists hold the same examples equally often, in any order. -/
def Rearranged (examples others : List Example) : Prop :=
  ∃ arranged, examples.Perm arranged ∧ List.Forall₂ Example.Alike arranged others

/-- A test of examples that does not tell those that are alike apart. -/
structure ViewTest where
  /-- Whether an example passes. -/
  passes : Example → Bool
  /-- Examples that are alike pass together. -/
  alike : ∀ case other, case.Alike other → passes case = passes other

namespace ViewTest

/-- The mask of the examples that pass. -/
def mask (test : ViewTest) (examples : List Example) : Mask := ⟨examples.map test.passes⟩

/-- Every example passes. -/
def always : ViewTest := ⟨fun _ => true, fun _ _ _ => rfl⟩

/-- No example passes. -/
def never : ViewTest := ⟨fun _ => false, fun _ _ _ => rfl⟩

/-- The examples pass that did not. -/
def negation (test : ViewTest) : ViewTest :=
  ⟨fun case => !test.passes case, fun case other like => by rw [test.alike case other like]⟩

/-- The examples pass that pass both tests. -/
def both (first second : ViewTest) : ViewTest :=
  ⟨fun case => first.passes case && second.passes case, fun case other like => by
    rw [first.alike case other like, second.alike case other like]⟩

/-- The examples pass that pass one of the tests. -/
def either (first second : ViewTest) : ViewTest :=
  ⟨fun case => first.passes case || second.passes case, fun case other like => by
    rw [first.alike case other like, second.alike case other like]⟩

variable {test first second : ViewTest} {examples : List Example}

/-- The full mask is that of the test that every example passes. -/
theorem mask_always (examples : List Example) :
    always.mask examples = .full examples.length := by
  simp [mask, always, Mask.full]

/-- The empty mask is that of the test that no example passes. -/
theorem mask_never (examples : List Example) :
    never.mask examples = .empty examples.length := by
  simp [mask, never, Mask.empty]

/-- The complement of a mask is the mask of the negation. -/
theorem complement_mask (test : ViewTest) (examples : List Example) :
    (test.mask examples).complement = test.negation.mask examples := by
  simp [mask, negation, Mask.complement]

/-- A union of masks is the mask of the examples that pass one of the tests. -/
theorem union_mask (first second : ViewTest) (examples : List Example) :
    (first.mask examples).union (second.mask examples) =
      .ok ((first.either second).mask examples) := by
  rw [Mask.union_eq_ok_iff]
  simp [mask, either, Mask.length, List.zipWith_map, List.zipWith_self]

/-- The count within a mask is that of the examples that pass both tests. -/
theorem countWithin_mask (first second : ViewTest) (examples : List Example) :
    (first.mask examples).countWithin (second.mask examples) =
      .ok ((first.both second).mask examples).count := by
  rw [Mask.countWithin_eq_ok_iff]
  simp [mask, both, Mask.length, Mask.count, List.zipWith_map, List.zipWith_self]

/-- The examples of a search for a condition ask whether an example passes. -/
theorem separatorExamples_mask (test : ViewTest) (examples : List Example) :
    separatorExamples examples (test.mask examples) =
      examples.map fun case => case.relabel (.bool (test.passes case)) := by
  simp [separatorExamples, mask, List.zipWith_map_right, List.zipWith_self]

end ViewTest

section

variable {config : SearchConfig} {grammar : Grammar} {examples others : List Example}

namespace Rearranged

/-- A permutation rearranges examples. -/
theorem of_perm (order : examples.Perm others) : Rearranged examples others :=
  ⟨others, order, List.forall₂_same.mpr fun case _ => .refl case⟩

/-- Rearranged examples are the same examples. -/
theorem same (moved : Rearranged examples others) : SameExamples examples others := by
  obtain ⟨arranged, order, alike⟩ := moved
  constructor
  · intro case inside
    obtain ⟨index, bounded, rfl⟩ := List.getElem_of_mem (order.mem_iff.mp inside)
    have within : index < others.length := alike.length_eq ▸ bounded
    exact ⟨others[index], List.getElem_mem within, alike.get bounded within⟩
  · intro other inside
    obtain ⟨index, bounded, rfl⟩ := List.getElem_of_mem inside
    have within : index < arranged.length := alike.length_eq ▸ bounded
    exact ⟨arranged[index], order.mem_iff.mpr (List.getElem_mem within), alike.get within bounded⟩

/-- A test passes as many of rearranged examples. -/
theorem count_mask_eq (moved : Rearranged examples others) (test : ViewTest) :
    (test.mask examples).count = (test.mask others).count := by
  obtain ⟨arranged, order, alike⟩ := moved
  have same : arranged.map test.passes = others.map test.passes := by
    rw [← List.forall₂_eq_eq_eq, List.forall₂_map_left_iff, List.forall₂_map_right_iff]
    exact alike.imp fun case other like => test.alike case other like
  have moved : (examples.map test.passes).Perm (others.map test.passes) :=
    same ▸ order.map test.passes
  exact moved.count_eq true

end Rearranged

/-- Two masks match when one test gives both. -/
def Mask.Matched (examples others : List Example) (mask other : Mask) : Prop :=
  ∃ test : ViewTest, mask = test.mask examples ∧ other = test.mask others

/-- Two pieces match when they have one program and their masks match. -/
structure Piece.Matched (examples others : List Example) (piece other : Piece) : Prop where
  /-- The programs are one. -/
  program : piece.program = other.program
  /-- The masks match. -/
  mask : Mask.Matched examples others piece.mask other.mask

/-- Two scored candidates match when they are one candidate and their masks match. -/
structure Scored.Matched (examples others : List Example) (entry other : Scored) : Prop where
  /-- The candidates are one. -/
  candidate : entry.candidate = other.candidate
  /-- The masks match. -/
  mask : Mask.Matched examples others entry.mask other.mask

/-- Two stages match when their pieces do and the same is left uncovered. -/
inductive Stage.Matched (examples others : List Example) : Stage → Stage → Prop where
  /-- Both pick pieces. -/
  | searching {collected collected' uncovered uncovered'}
    (pieces : List.Forall₂ (Piece.Matched examples others) collected collected')
    (left : Mask.Matched examples others uncovered uncovered') :
    Matched examples others (.searching collected uncovered) (.searching collected' uncovered')
  /-- Both have covered every example. -/
  | covered {collected collected'}
    (pieces : List.Forall₂ (Piece.Matched examples others) collected collected') :
    Matched examples others (.covered collected) (.covered collected')
  /-- Both merge pieces. -/
  | unifying {merged merged' rest rest'} (first : Piece.Matched examples others merged merged')
    (waiting : List.Forall₂ (Piece.Matched examples others) rest rest') :
    Matched examples others (.unifying merged rest) (.unifying merged' rest')
  /-- Both have one piece left. -/
  | done {piece piece'} (last : Piece.Matched examples others piece piece') :
    Matched examples others (.done piece) (.done piece')

namespace Mask.Matched

variable {mask other left left' : Mask} {masks masks' : List Mask}

/-- Matching masks have matching complements. -/
theorem complement (matched : Matched examples others mask other) :
    Matched examples others mask.complement other.complement := by
  obtain ⟨test, rfl, rfl⟩ := matched
  exact ⟨test.negation, test.complement_mask examples, test.complement_mask others⟩

/-- Matching masks have matching unions. -/
theorem union (matched : Matched examples others left left')
    (further : Matched examples others mask other) :
    Agree (Matched examples others) (left.union mask) (left'.union other) := by
  obtain ⟨first, rfl, rfl⟩ := matched
  obtain ⟨second, rfl, rfl⟩ := further
  rw [first.union_mask second, first.union_mask second]
  exact .ok ⟨first.either second, rfl, rfl⟩

/-- Lists of matching masks have matching unions. -/
theorem unionAll (matched : List.Forall₂ (Matched examples others) masks masks') :
    Agree (Matched examples others) (Mask.unionAll examples.length masks)
      (Mask.unionAll others.length masks') := by
  have start : Matched examples others (.empty examples.length) (.empty others.length) :=
    ⟨.never, (ViewTest.mask_never examples).symm, (ViewTest.mask_never others).symm⟩
  rw [Mask.unionAll, Mask.unionAll]
  generalize Mask.empty examples.length = so at start
  generalize Mask.empty others.length = far at start
  induction matched generalizing so far with
  | nil => exact .ok start
  | cons first _ ih =>
    rw [List.foldlM_cons, List.foldlM_cons]
    exact (start.union first).bind fun joined joined' same => ih joined joined' same

/-- Matching masks mark as many examples. -/
theorem count_eq (moved : Rearranged examples others)
    (matched : Matched examples others mask other) : mask.count = other.count := by
  obtain ⟨test, rfl, rfl⟩ := matched
  exact moved.count_mask_eq test

/-- Matching masks count as much within each other. -/
theorem countWithin_eq (moved : Rearranged examples others)
    (matched : Matched examples others left left') (within : Matched examples others mask other) :
    left.countWithin mask = left'.countWithin other := by
  obtain ⟨first, rfl, rfl⟩ := matched
  obtain ⟨second, rfl, rfl⟩ := within
  rw [first.countWithin_mask second, first.countWithin_mask second, moved.count_mask_eq]

/-- Matching masks ask conditions for the same examples. -/
theorem separatorExamples (moved : Rearranged examples others)
    (matched : Matched examples others mask other) :
    SameExamples (separatorExamples examples mask) (separatorExamples others other) := by
  obtain ⟨test, rfl, rfl⟩ := matched
  rw [test.separatorExamples_mask, test.separatorExamples_mask]
  refine moved.same.map fun case other like => ⟨like.1, ?_⟩
  rw [Example.relabel, Example.relabel, test.alike case other like]

end Mask.Matched

/-- The masks of a well-typed candidate match. -/
theorem Grammar.WellTyped.mask_agree {candidate : Candidate} (typed : grammar.WellTyped candidate)
    (bound : grammar.BoundBy examples) (boundOthers : grammar.BoundBy others) :
    Agree (Mask.Matched examples others) (candidate.mask examples) (candidate.mask others) := by
  obtain ⟨program, compiled, programTyped⟩ := typed.compile
  let test : ViewTest :=
    ⟨fun case => decide (program.eval case.input = .ok case.output), fun case other like => by
      rw [like.eval_eq program, like.2]⟩
  have masks : ∀ list, grammar.BoundBy list → program.mask list = .ok (test.mask list) := by
    intro list binds
    have each : ∀ case ∈ list, (do return decide ((← program.eval case.input) = case.output)) =
        Except.ok (ε := Fault) (test.passes case) := by
      intro case inside
      obtain ⟨value, evaluated, _⟩ := programTyped.eval (binds case inside)
      simp only [test, evaluated, ok_bind, pure_eq_ok, Except.ok.injEq]
    rw [Expr.mask, mapM_eq_ok_map each]
    rfl
  rw [Candidate.mask, Candidate.mask, compiled, ok_bind, ok_bind, masks examples bound,
    masks others boundOthers]
  exact .ok ⟨test, rfl, rfl⟩

variable {scored scored' : List Scored} {uncovered uncovered' : Mask}
  {start counters : Counters}

/-- The best entries so far match when both are missing or the entries match and gain as much. -/
def BestMatched (examples others : List Example) :
    Option (Scored × Nat) → Option (Scored × Nat) → Prop :=
  Option.Rel fun best best' => Scored.Matched examples others best.1 best'.1 ∧ best.2 = best'.2

/-- Looking through matching entries for the best gives matching entries. -/
theorem bestFrom_agree (moved : Rearranged examples others)
    (left : Mask.Matched examples others uncovered uncovered')
    (entries : List.Forall₂ (Scored.Matched examples others) scored scored')
    {best best' : Option (Scored × Nat)} (start : BestMatched examples others best best') :
    Agree (BestMatched examples others) (bestFrom uncovered best scored)
      (bestFrom uncovered' best' scored') := by
  induction entries generalizing best best' with
  | nil => exact .ok start
  | @cons entry entry' scored scored' matched _ ih =>
    have gains : (best.map Prod.snd).getD 0 = (best'.map Prod.snd).getD 0 := by
      cases start with
      | none => rfl
      | some both => exact both.2
    rw [bestFrom, bestFrom, ← matched.mask.countWithin_eq moved left, ← gains]
    refine (Agree.refl (entry.mask.countWithin uncovered)).bind fun gain gain' same => ?_
    rw [← same]
    split
    · exact ih (.some ⟨matched, rfl⟩)
    · exact ih start

/-- The best of matching entries match. -/
theorem bestFor_agree (moved : Rearranged examples others)
    (entries : List.Forall₂ (Scored.Matched examples others) scored scored')
    (left : Mask.Matched examples others uncovered uncovered') :
    Agree (Option.Rel (Scored.Matched examples others)) (bestFor scored uncovered)
      (bestFor scored' uncovered') := by
  refine (bestFrom_agree moved left entries .none).bind fun best best' both => ?_
  cases both with
  | none => exact .ok .none
  | some both => exact .ok (.some both.1)

/-- The same candidates are scored over rearranged examples, with matching masks. -/
theorem score_agree (moved : Rearranged examples others) (bound : grammar.BoundBy examples) :
    Agree (fun report other => report.counters = other.counters ∧
        Option.Rel (List.Forall₂ (Scored.Matched examples others)) report.result other.result)
      (score config grammar examples counters) (score config grammar others counters) := by
  have spaceBound : (config.space grammar).grammar.BoundBy examples := bound
  have typed : (config.space grammar).grammar.TypedPool grammar.terminals :=
    Grammar.typedPool_terminals grammar
  have boundOthers := moved.same.boundBy bound
  rw [score, score, ← moved.same.growLevels_eq typed spaceBound]
  refine (Agree.refl _).returned.bind fun report report' both => ?_
  obtain ⟨rfl, grown, _⟩ := both
  obtain ⟨pool, leveled⟩ := report
  cases pool with
  | none => exact .ok ⟨rfl, .none⟩
  | some pool =>
    have poolTyped : grammar.TypedPool pool :=
      SearchSpace.typedPool_of_growLevels typed spaceBound grown
    simp only [Grammar.ofType_eq poolTyped.declaresHeads, ok_bind]
    refine (Agree.refl _).bind fun counted counted' same => ?_
    have each : ∀ candidate ∈ pool.filter fun candidate => candidate.ty = .int,
        Agree (Scored.Matched examples others)
          (do return Scored.mk candidate (← candidate.mask examples))
          (do return Scored.mk candidate (← candidate.mask others)) := by
      intro candidate inside
      have member : candidate ∈ pool := List.mem_of_mem_filter inside
      exact ((poolTyped candidate member).mask_agree bound boundOthers).bind
        fun mask mask' masks => .ok ⟨rfl, masks⟩
    exact (Agree.mapM each).bind fun entries entries' matched => .ok ⟨same, .some matched⟩

/-- Matching pieces are merged alike. -/
theorem unify_agree {first first' second second' : Piece} (moved : Rearranged examples others)
    (bound : grammar.BoundBy examples) (before : Piece.Matched examples others first first')
    (after : Piece.Matched examples others second second') :
    Agree (fun report other => report.counters = other.counters ∧
        Option.Rel (Piece.Matched examples others) report.result other.result)
      (unify config grammar examples first second counters)
      (unify config grammar others first' second' counters) := by
  have labelled : (config.separatorSpace grammar).grammar.BoundBy
    (separatorExamples examples first.mask) := boundBy_separatorExamples bound first.mask
  rw [unify, unify, ← (before.mask.separatorExamples moved).enumerativeSearch_eq labelled]
  refine .bind_same fun found => ?_
  refine .bind_same fun recorded => ?_
  refine .bind_same fun counted => ?_
  cases found.result with
  | none => exact .ok ⟨rfl, .none⟩
  | some separator =>
    refine (before.mask.union after.mask).bind fun mask mask' masks => ?_
    refine .bind_same fun condition => ?_
    exact .ok ⟨rfl, .some ⟨by rw [before.program, after.program], masks⟩⟩

namespace Stage

variable {stage stage' : Stage}

/-- While pieces are picked, matching stages pick matching pieces. -/
theorem step_searching_agree {collected collected' : List Piece}
    (moved : Rearranged examples others)
    (entries : List.Forall₂ (Scored.Matched examples others) scored scored')
    (pieces : List.Forall₂ (Piece.Matched examples others) collected collected')
    (left : Mask.Matched examples others uncovered uncovered') :
    Agree (Transition.Matched
        (fun stage counters stage' counters' =>
          counters = counters' ∧ Stage.Matched examples others stage stage') Eq)
      ((searching collected uncovered).step config grammar examples scored counters)
      ((searching collected' uncovered').step config grammar others scored' counters) := by
  rw [step, step, left.count_eq moved]
  by_cases done : uncovered'.count = 0
  · rw [if_pos done, if_pos done]
    exact .ok (.next ⟨rfl, .covered pieces⟩)
  · rw [if_neg done, if_neg done]
    refine (bestFor_agree moved entries left).bind fun best best' both => ?_
    cases both with
    | none => exact .ok (.stop rfl)
    | @some entry entry' both =>
      simp only [← both.candidate]
      refine .bind_same fun program => ?_
      have more : List.Forall₂ (Piece.Matched examples others)
          (collected ++ [Piece.mk program entry.mask])
          (collected' ++ [Piece.mk program entry'.mask]) :=
        List.rel_append pieces (.cons ⟨rfl, both.mask⟩ .nil)
      have masks : List.Forall₂ (Mask.Matched examples others)
          ((collected ++ [Piece.mk program entry.mask]).map Piece.mask)
          ((collected' ++ [Piece.mk program entry'.mask]).map Piece.mask) := by
        rw [List.forall₂_map_left_iff, List.forall₂_map_right_iff]
        exact more.imp fun _ _ => Piece.Matched.mask
      refine (Mask.Matched.unionAll masks).bind fun solved solved' same => ?_
      exact .ok (.next ⟨rfl, .searching more same.complement⟩)

/-- Steps from matching stages lead to matching stages, or end the runs alike. -/
theorem step_agree (moved : Rearranged examples others) (bound : grammar.BoundBy examples)
    (entries : List.Forall₂ (Scored.Matched examples others) scored scored')
    (matched : Stage.Matched examples others stage stage')
    (sound : stage.Sound config grammar examples scored start)
    (soundOthers : stage'.Sound config grammar others scored' start) :
    Agree (Transition.Matched
        (fun stage counters stage' counters' =>
          counters = counters' ∧ Stage.Matched examples others stage stage') Eq)
      (stage.step config grammar examples scored counters)
      (stage'.step config grammar others scored' counters) := by
  cases matched with
  | searching pieces left => exact step_searching_agree moved entries pieces left
  | covered pieces =>
    cases pieces with
    | nil => exact .ok (.stop rfl)
    | cons first waiting => exact .ok (.next ⟨rfl, .unifying first waiting⟩)
  | unifying first waiting =>
    cases waiting with
    | nil => exact .ok (.next ⟨rfl, .done first⟩)
    | cons second waiting =>
      rw [step, step]
      refine (unify_agree moved bound first second).bind fun report report' both => ?_
      obtain ⟨result, later⟩ := report
      obtain ⟨result', later'⟩ := report'
      obtain ⟨rfl, joined⟩ := both
      cases joined with
      | none => exact .ok (.stop rfl)
      | some joined => exact .ok (.next ⟨rfl, .unifying joined waiting⟩)
  | @done piece piece' last =>
    obtain ⟨full, exact⟩ := sound
    obtain ⟨full', exact'⟩ := soundOthers
    have correct := Expr.isCorrect_of_mask_full (full ▸ exact)
    have correct' := Expr.isCorrect_of_mask_full (full' ▸ exact')
    rw [step, step, full, full', Mask.isFull_full, Mask.isFull_full, if_pos rfl, if_pos rfl,
      correct, correct', last.program]
    exact .ok (.stop rfl)

/-- Whether two runs stand at matching stages that they reach. That a stage is reached is what
makes the final check of its program succeed. -/
structure InStep (config : SearchConfig) (grammar : Grammar) (examples others : List Example)
    (scored scored' : List Scored) (start : Counters) (stage : Stage) (counters : Counters)
    (stage' : Stage) (counters' : Counters) : Prop where
  /-- The runs have counted the same. -/
  counted : counters = counters'
  /-- Their stages match. -/
  matched : Stage.Matched examples others stage stage'
  /-- The first run reaches its stage. -/
  reached : Reached config grammar examples scored start stage counters
  /-- The second run reaches its stage. -/
  reachedOthers : Reached config grammar others scored' start stage' counters'

/-- Runs that stand in step stay in step, or end alike. -/
theorem InStep.agree (moved : Rearranged examples others) (bound : grammar.BoundBy examples)
    (entries : List.Forall₂ (Scored.Matched examples others) scored scored')
    (masked : ∀ entry ∈ scored, entry.candidate.mask examples = .ok entry.mask)
    (maskedOthers : ∀ entry ∈ scored', entry.candidate.mask others = .ok entry.mask)
    {counters' : Counters}
    (both : InStep config grammar examples others scored scored' start stage counters stage'
      counters') :
    Agree (Transition.Matched (InStep config grammar examples others scored scored' start) Eq)
      (stage.step config grammar examples scored counters)
      (stage'.step config grammar others scored' counters') := by
  obtain ⟨rfl, matched, reached, reachedOthers⟩ := both
  have sound := sound_of_reached masked reached
  have soundOthers := sound_of_reached maskedOthers reachedOthers
  refine (step_agree moved bound entries matched sound soundOthers).returned.imp
    fun transition transition' steps => ?_
  obtain ⟨transitions, here, there⟩ := steps
  cases transitions with
  | next stages => exact .next ⟨stages.1, stages.2, reached.step here, reachedOthers.step there⟩
  | stop same => exact .stop same

end Stage

/-- A unification search over rearranged examples is the same. -/
theorem Rearranged.unificationSearch_eq (moved : Rearranged examples others)
    (bound : grammar.BoundBy examples) :
    unificationSearch config grammar examples = unificationSearch config grammar others := by
  apply Agree.eq
  refine (score_agree moved bound).returned.bind fun report report' both => ?_
  obtain ⟨⟨counted, results⟩, scoring, scoringOthers⟩ := both
  obtain ⟨result, start⟩ := report
  obtain ⟨result', start'⟩ := report'
  obtain rfl : start = start' := counted
  cases results with
  | none => exact .ok rfl
  | @some scored scored' entries =>
    have masked : ∀ entry ∈ scored, entry.candidate.mask examples = .ok entry.mask :=
      fun entry inside => mask_of_score scoring inside
    have maskedOthers : ∀ entry ∈ scored', entry.candidate.mask others = .ok entry.mask :=
      fun entry inside => mask_of_score scoringOthers inside
    have full : Mask.Matched examples others (.full examples.length) (.full others.length) :=
      ⟨.always, (ViewTest.mask_always examples).symm, (ViewTest.mask_always others).symm⟩
    have started : Stage.InStep config grammar examples others scored scored' start
        (.initial examples) start (.initial others) start :=
      ⟨rfl, .searching .nil full, .initial, .initial⟩
    exact Stage.run_agree (fun _ _ _ _ both =>
      Stage.InStep.agree moved bound entries masked maskedOthers both) _ _ started

end

/-- Order and repetition of examples do not matter. On examples that bind the declared names, an
enumerative search over the same examples, in any order and however often each occurs, returns the
same candidate or none with the same counters; and a unification search over the examples in any
order returns the same program or none with the same counters. -/
theorem searches_ignore_arrangement (config : SearchConfig) (grammar : Grammar)
    (examples others : List Example) (bound : grammar.BoundBy examples) :
    (SameExamples examples others →
      enumerativeSearch (config.space grammar) examples config.maxLevel config.poolLimit =
        enumerativeSearch (config.space grammar) others config.maxLevel config.poolLimit) ∧
    (Rearranged examples others →
      unificationSearch config grammar examples = unificationSearch config grammar others) := by
  have spaceBound : (config.space grammar).grammar.BoundBy examples := bound
  exact ⟨fun same => same.enumerativeSearch_eq spaceBound,
    fun moved => moved.unificationSearch_eq bound⟩

/-- The smaller of two numbers is searched for alike when its examples are read backwards. -/
theorem Smaller.searches_reverse :
    Smaller.grammar.BoundBy Smaller.examples ∧
    SameExamples Smaller.examples Smaller.examples.reverse ∧
    Rearranged Smaller.examples Smaller.examples.reverse ∧
    enumerativeSearch (Smaller.config.space Smaller.grammar) Smaller.examples
        Smaller.config.maxLevel Smaller.config.poolLimit =
      enumerativeSearch (Smaller.config.space Smaller.grammar) Smaller.examples.reverse
        Smaller.config.maxLevel Smaller.config.poolLimit ∧
    unificationSearch Smaller.config Smaller.grammar Smaller.examples =
      unificationSearch Smaller.config Smaller.grammar Smaller.examples.reverse := by
  have bound : Smaller.grammar.BoundBy Smaller.examples := by decide
  have same : SameExamples Smaller.examples Smaller.examples.reverse :=
    .of_mem_iff fun _ => List.mem_reverse.symm
  have moved : Rearranged Smaller.examples Smaller.examples.reverse :=
    .of_perm (List.reverse_perm _).symm
  have alike := searches_ignore_arrangement Smaller.config Smaller.grammar Smaller.examples
    Smaller.examples.reverse bound
  exact ⟨bound, same, moved, alike.1 same, alike.2 moved⟩

end ProgramSynthesis
