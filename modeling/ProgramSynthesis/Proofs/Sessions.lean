import ProgramSynthesis.Proofs.AddedCounters
import ProgramSynthesis.Proofs.Nesting
import ProgramSynthesis.Search.Session

/-!
# What a synthesizer keeps between requests

The counters are all that a synthesizer carries from one request to the next, and no answer reads
them. So each answer of a session is the one that a fresh synthesizer with the same settings gives
to the same request. The counters tell how far the session has come: a scoring and a merge absorb
what they count on a fresh synthesizer, and a whole search leaves exactly that. A session returns
whenever its requests do so on fresh synthesizers and the sums of their counters fit.
-/

namespace ProgramSynthesis

/-- The counters after a transition. -/
def Transition.counters : Transition → Counters
  | next _ counters => counters
  | stop report => report.counters

section

variable {config : SearchConfig} {grammar : Grammar} {examples : List Example}
  {scored : List Scored} {counters : Counters} {stage : Stage}

namespace Stage

/-- A step leaves counters that fit their words: only a merge changes them. -/
theorem below_of_step {transition : Transition} (within : counters.Below maxCount)
    (stepped : stage.step config grammar examples scored counters = .ok transition) :
    transition.counters.Below maxCount := by
  cases stage with
  | searching collected uncovered =>
    rw [step] at stepped
    split at stepped
    · cases stepped
      exact within
    · obtain ⟨best, _, stepped⟩ := bind_eq_ok_iff.mp stepped
      cases best with
      | none =>
        cases stepped
        exact within
      | some entry =>
        obtain ⟨program, _, stepped⟩ := bind_eq_ok_iff.mp stepped
        obtain ⟨solved, _, stepped⟩ := bind_eq_ok_iff.mp stepped
        cases stepped
        exact within
  | covered pieces =>
    cases pieces <;> cases stepped <;> exact within
  | unifying merged rest =>
    cases rest with
    | nil =>
      cases stepped
      exact within
    | cons piece rest =>
      obtain ⟨⟨result, later⟩, unified, stepped⟩ := bind_eq_ok_iff.mp stepped
      have added := (additive_unify config grammar examples merged piece).below within unified
      cases result <;> cases stepped <;> exact added
  | done piece =>
    rw [step] at stepped
    split at stepped
    · obtain ⟨verdict, _, stepped⟩ := bind_eq_ok_iff.mp stepped
      cases verdict <;> cases stepped
      exact within
    · cases stepped

/-- So does a run. -/
theorem below_of_run {report : Report Expr} (exact : stage.Exact examples)
    (within : counters.Below maxCount)
    (ran : stage.run config grammar examples scored counters exact = .ok report) :
    report.counters.Below maxCount := by
  induction measured : stage.measure using Nat.strong_induction_on
    generalizing stage counters with
  | _ size ih =>
    cases stepped : stage.step config grammar examples scored counters with
    | error fault =>
      rw [run_eq_of_fault exact stepped] at ran
      cases ran
    | ok transition =>
      have after : transition.counters.Below maxCount := below_of_step within stepped
      cases transition with
      | stop last =>
        rw [run_eq_of_stop exact stepped] at ran
        cases ran
        exact after
      | next following later =>
        rw [run_eq_of_next exact stepped] at ran
        have lower := measure_lt_of_moves exact (moves_of_step stepped)
        exact ih _ (measured ▸ lower) _ after ran rfl

end Stage

/-- A whole search leaves counters that fit their words. -/
theorem below_of_unificationSearch {report : Report Expr}
    (searched : unificationSearch config grammar examples = .ok report) :
    report.counters.Below maxCount := by
  obtain ⟨⟨result, start⟩, scoring, ran⟩ := bind_eq_ok_iff.mp searched
  have counted : start.Below maxCount :=
    (additive_score config grammar examples).below (Counters.atMost_zero _ _ _) scoring
  cases result with
  | none =>
    cases ran
    exact counted
  | some scored => exact Stage.below_of_run _ counted ran

end

namespace UnifyingSynthesizer

variable {config : SearchConfig} {before after : Counters} {request : Request} {answer : Answer}
  {requests : List Request} {replies : List (Answer × UnifyingSynthesizer)}

/-- How the counters after a request come from those before it and those of the request alone: a
scoring and a merge are absorbed, and a whole search starts anew. -/
def Request.Counts (before alone after : Counters) : Request → Prop
  | score _ _ => before.absorb alone = .ok after
  | unify _ _ _ _ => before.absorb alone = .ok after
  | run _ _ => after = alone

/-- The replies to several requests as fresh synthesizers with the same settings answer them one by
one, with the counters before the first of them. -/
inductive Served (config : SearchConfig) :
    Counters → List Request → List (Answer × UnifyingSynthesizer) → Prop where
  /-- Nothing is asked. -/
  | nil {before : Counters} : Served config before [] []
  /-- The answer is that of a fresh synthesizer, and only the counters tell what was before. -/
  | cons {before alone after : Counters} {request : Request} {answer : Answer}
    {requests : List Request} {replies : List (Answer × UnifyingSynthesizer)}
    (answered : (fresh config).serve request = .ok (answer, ⟨config, alone⟩))
    (counted : request.Counts before alone after)
    (later : Served config after requests replies) :
    Served config before (request :: requests) ((answer, ⟨config, after⟩) :: replies)

/-- What is answered from a report of an additive search, with its counters kept, is answered alike
by a fresh synthesizer. -/
theorem reply_iff_of_additive {α : Type} {outcome : Counters → Except Fault (Report α)}
    (additive : Additive outcome) (within : before.Below maxCount) (wrap : Option α → Answer) :
    (outcome before >>= fun report =>
        pure (wrap report.result, UnifyingSynthesizer.mk config report.counters)) =
      .ok (answer, ⟨config, after⟩) ↔
    ∃ alone, (outcome .zero >>= fun report =>
        pure (wrap report.result, UnifyingSynthesizer.mk config report.counters)) =
      .ok (answer, ⟨config, alone⟩) ∧ before.absorb alone = .ok after := by
  constructor
  · intro served
    obtain ⟨⟨result, later⟩, returned, same⟩ := bind_eq_ok_iff.mp served
    cases same
    obtain ⟨alone, fresh, absorbed⟩ := (additive before _ within).mp returned
    exact ⟨alone, bind_eq_ok_iff.mpr ⟨_, fresh, rfl⟩, absorbed⟩
  · rintro ⟨alone, served, absorbed⟩
    obtain ⟨⟨result, later⟩, fresh, same⟩ := bind_eq_ok_iff.mp served
    cases same
    have returned : outcome before = .ok ⟨result, after⟩ :=
      (additive before ⟨result, after⟩ within).mpr ⟨later, fresh, absorbed⟩
    exact bind_eq_ok_iff.mpr ⟨_, returned, rfl⟩

/-- A scoring is answered from its report. -/
theorem serve_score (grammar : Grammar) (examples : List Example) :
    (UnifyingSynthesizer.mk config before).serve (.score grammar examples) =
      ProgramSynthesis.score config grammar examples before >>= fun report =>
        pure (.scored report.result, ⟨config, report.counters⟩) := by
  simp only [serve, score, bind_assoc, pure_bind]

/-- A merge is answered from its report. -/
theorem serve_unify (grammar : Grammar) (examples : List Example) (first second : Piece) :
    (UnifyingSynthesizer.mk config before).serve (.unify grammar examples first second) =
      ProgramSynthesis.unify config grammar examples first second before >>= fun report =>
        pure (.merged report.result, ⟨config, report.counters⟩) := by
  simp only [serve, unify, bind_assoc, pure_bind]

/-- A whole search is answered from its report, which is not about the counters before. -/
theorem serve_run (grammar : Grammar) (examples : List Example) :
    (UnifyingSynthesizer.mk config before).serve (.run grammar examples) =
      unificationSearch config grammar examples >>= fun report =>
        pure (.found report.result, ⟨config, report.counters⟩) := by
  simp only [serve, run, bind_assoc, pure_bind]

/-- The settings stay as they are. -/
theorem config_of_serve {later : UnifyingSynthesizer}
    (served : (UnifyingSynthesizer.mk config before).serve request = .ok (answer, later)) :
    later.config = config := by
  cases request with
  | score grammar examples =>
    rw [serve_score] at served
    obtain ⟨report, _, same⟩ := bind_eq_ok_iff.mp served
    cases same
    rfl
  | unify grammar examples first second =>
    rw [serve_unify] at served
    obtain ⟨report, _, same⟩ := bind_eq_ok_iff.mp served
    cases same
    rfl
  | run grammar examples =>
    rw [serve_run] at served
    obtain ⟨report, _, same⟩ := bind_eq_ok_iff.mp served
    cases same
    rfl

/-- A request is answered as by a fresh synthesizer, whatever was counted before. -/
theorem serve_eq_ok_iff (within : before.Below maxCount) :
    (UnifyingSynthesizer.mk config before).serve request = .ok (answer, ⟨config, after⟩) ↔
      ∃ alone, (fresh config).serve request = .ok (answer, ⟨config, alone⟩) ∧
        request.Counts before alone after := by
  cases request with
  | score grammar examples =>
    simp only [fresh, serve_score]
    exact reply_iff_of_additive (additive_score config grammar examples) within .scored
  | unify grammar examples first second =>
    simp only [fresh, serve_unify]
    exact reply_iff_of_additive (additive_unify config grammar examples first second) within .merged
  | run grammar examples =>
    simp only [fresh, serve_run]
    constructor
    · intro served
      exact ⟨after, served, rfl⟩
    · rintro ⟨alone, served, rfl⟩
      exact served

/-- After a request the counters fit their words. -/
theorem below_of_counts {alone : Counters}
    (answered : (fresh config).serve request = .ok (answer, ⟨config, alone⟩))
    (counted : request.Counts before alone after) : after.Below maxCount := by
  cases request with
  | score grammar examples => exact (Counters.absorb_eq_ok_iff.mp counted).2
  | unify grammar examples first second => exact (Counters.absorb_eq_ok_iff.mp counted).2
  | run grammar examples =>
    rw [fresh, serve_run] at answered
    obtain ⟨report, searched, same⟩ := bind_eq_ok_iff.mp answered
    cases same
    cases counted
    exact below_of_unificationSearch searched

/-- A session from any counters that fit their words is served as by fresh synthesizers. -/
theorem serveAll_eq_ok_iff (within : before.Below maxCount) :
    (UnifyingSynthesizer.mk config before).serveAll requests = .ok replies ↔
      Served config before requests replies := by
  induction requests generalizing before replies with
  | nil =>
    constructor
    · rintro ⟨⟩
      exact .nil
    · rintro ⟨⟩
      rfl
  | cons request requests ih =>
    rw [serveAll, bind_eq_ok_iff]
    constructor
    · rintro ⟨⟨answer, later, after⟩, served, rest⟩
      obtain ⟨others, all, same⟩ := bind_eq_ok_iff.mp rest
      cases same
      obtain rfl : later = config := config_of_serve served
      obtain ⟨alone, answered, counted⟩ := (serve_eq_ok_iff within).mp served
      have fits : after.Below maxCount := below_of_counts answered counted
      exact .cons answered counted ((ih fits).mp all)
    · intro served
      cases served with
      | @cons _ _ after _ _ _ others answered counted later =>
        have fits : after.Below maxCount := below_of_counts answered counted
        have first := (serve_eq_ok_iff within).mpr ⟨_, answered, counted⟩
        exact ⟨_, first, bind_eq_ok_iff.mpr ⟨others, (ih fits).mpr later, rfl⟩⟩

end UnifyingSynthesizer

/-- Searches in a row are those of synthesizers of their own. -/
theorem EnumeratingSynthesizer.runAll_eq_mapM (config : SearchConfig) (ops : List Op)
    (counters : Counters) (problems : List (Grammar × List Example)) :
    (EnumeratingSynthesizer.mk config ops counters).runAll problems =
      problems.mapM fun (grammar, examples) =>
        ((fresh config).withOps ops).run grammar examples := by
  induction problems generalizing counters with
  | nil => rfl
  | cons problem problems ih =>
    obtain ⟨grammar, examples⟩ := problem
    rw [runAll, List.mapM_cons]
    refine bind_congr_of_ok fun reply searched => ?_
    obtain ⟨report, _, kept⟩ := bind_eq_ok_iff.mp searched
    cases kept
    simp only [ih]

/-- Synthesizers carry nothing but counters. A session on one unifying synthesizer returns certain
replies exactly when every answer among them is that of a fresh synthesizer with the same settings
to the same request, found or not; after a scoring or a merge the counters are those before it
with the fresh synthesizer's counters absorbed, and after a whole search they are the fresh
synthesizer's. Searches in a row on one enumerating synthesizer are searches on fresh ones,
answers, counters and faults alike. -/
theorem synthesizers_carry_only_counters (config : SearchConfig) :
    (∀ requests replies, (UnifyingSynthesizer.fresh config).serveAll requests = .ok replies ↔
      UnifyingSynthesizer.Served config .zero requests replies) ∧
    ∀ ops problems, ((EnumeratingSynthesizer.fresh config).withOps ops).runAll problems =
      problems.mapM fun (grammar, examples) =>
        ((EnumeratingSynthesizer.fresh config).withOps ops).run grammar examples := by
  constructor
  · intro requests replies
    have fits : Counters.zero.Below maxCount := Counters.atMost_zero _ _ _
    exact UnifyingSynthesizer.serveAll_eq_ok_iff fits
  · intro ops problems
    exact EnumeratingSynthesizer.runAll_eq_mapM config ops .zero problems

namespace Smaller

open UnifyingSynthesizer (Served)

/-- The pieces for the smaller of two numbers are scored and merged, and then it is searched for
anew: the merge adds to the counters of the scoring, and the search does not. -/
theorem served_in_order :
    Served config .zero
      [.score grammar examples, .unify grammar examples first second, .run grammar examples]
      [(.scored (some scored), ⟨config, start⟩),
        (.merged (some ⟨program, .full 2⟩), ⟨config, finish⟩),
        (.found (some program), ⟨config, finish⟩)] := by
  have scoring : score config grammar examples .zero = .ok ⟨some scored, start⟩ := by
    decide +kernel
  refine ((synthesizers_carry_only_counters config).1 _ _).mp ?_
  simp only [UnifyingSynthesizer.serveAll, UnifyingSynthesizer.serve, UnifyingSynthesizer.score,
    UnifyingSynthesizer.unify, UnifyingSynthesizer.run, UnifyingSynthesizer.fresh, scoring,
    unify_eq, unificationSearch_eq, ok_bind, pure_eq_ok]

end Smaller

end ProgramSynthesis
