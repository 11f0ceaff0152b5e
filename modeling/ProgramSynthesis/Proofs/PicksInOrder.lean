import ProgramSynthesis.Proofs.GreedyPicks
import ProgramSynthesis.Proofs.Stages

/-!
# A run picks greedily

The stages in which a run still picks are exactly those of greedy picks: a stage that is reached
holds such picks, compiled, and whatever can be picked greedily is reached. What is known of
greedy picks is therefore known of every run, over whatever entries have been scored.
-/

namespace ProgramSynthesis

namespace Stage

variable {config : SearchConfig} {grammar : Grammar} {examples : List Example}
  {scored : List Scored} {start counters : Counters} {stage : Stage}

/-- Whether a stage that still picks holds greedy picks, for which nothing has been counted. -/
def Greedy (examples : List Example) (scored : List Scored) (start counters : Counters) :
    Stage → Prop
  | searching collected uncovered => counters = start ∧ ∃ picks covered,
      GreedyPicks examples.length scored picks covered ∧
        collected = picks.map Pick.piece ∧ uncovered = covered.complement
  | _ => True

/-- A run picks greedily. -/
theorem greedy_of_reached (reached : Reached config grammar examples scored start stage counters) :
    stage.Greedy examples scored start counters := by
  induction reached with
  | initial =>
    exact ⟨rfl, [], .empty examples.length, .none, rfl, (Mask.complement_empty _).symm⟩
  | step _ stepped ih =>
    cases moves_of_step stepped with
    | @pick collected uncovered _ entry program solved best compiled joined =>
      obtain ⟨same, picks, covered, run, rfl, rfl⟩ := ih
      obtain ⟨gain, best⟩ := bestFor_eq_some_iff.mp best
      rw [List.map_append, List.map_singleton, Mask.unionAll_append_singleton, map_mask_piece,
        run.union, ok_bind] at joined
      have further :
          GreedyPicks examples.length scored (picks ++ [⟨entry, program, gain⟩]) solved :=
        run.pick best compiled joined
      exact ⟨same, _, solved, further, by simp [Pick.piece], rfl⟩
    | cover _ => trivial
    | start => trivial
    | merge _ => trivial
    | finish => trivial

/-- Greedy picks are made by a run. -/
theorem reached_of_greedyPicks {picks : List Pick} {covered : Mask}
    (run : GreedyPicks examples.length scored picks covered) :
    Reached config grammar examples scored start
      (searching (picks.map Pick.piece) covered.complement) start := by
  induction run with
  | none =>
    rw [Mask.complement_empty]
    exact .initial
  | @pick picks covered pick all before best compiled joined ih =>
    have found := bestFor_eq_some_iff.mpr ⟨pick.gain, best⟩
    have union : Mask.unionAll examples.length
        ((picks.map Pick.piece ++ [pick.piece]).map Piece.mask) = .ok all := by
      rw [List.map_append, List.map_singleton, Mask.unionAll_append_singleton, map_mask_piece,
        before.union, ok_bind]
      exact joined
    have stepped : (searching (picks.map Pick.piece) covered.complement).step config grammar
        examples scored start = .ok (.next
          (searching (picks.map Pick.piece ++ [pick.piece]) all.complement) start) := by
      rw [step, if_neg best.count_ne_zero, found, ok_bind]
      simp only [compiled, ok_bind]
      rw [← Pick.piece, union]
      rfl
    rw [List.map_append, List.map_singleton]
    exact ih.step stepped

/-- The stages in which a run still picks are those of greedy picks. -/
theorem reached_searching_iff {pieces : List Piece} {uncovered : Mask} :
    Reached config grammar examples scored start (searching pieces uncovered) counters ↔
      counters = start ∧ ∃ picks covered, GreedyPicks examples.length scored picks covered ∧
        pieces = picks.map Pick.piece ∧ uncovered = covered.complement := by
  constructor
  · exact greedy_of_reached
  · rintro ⟨rfl, picks, covered, run, rfl, rfl⟩
    exact reached_of_greedyPicks run

/-- Pieces are picked greedily, in order. Among scored entries with masks over the examples there
is no best entry for some examples exactly when no entry solves one of these. Each piece that a
run holds is the earliest entry that solves the most of what the pieces before it leave uncovered,
compiled, and solves some of it. The gains do not increase and add up to the number of examples
that the pieces cover, and no entry is picked twice. Where there is a best entry that compiles, it
is picked next. -/
theorem greedy_picks_in_order (config : SearchConfig) (grammar : Grammar)
    (examples : List Example) (scored : List Scored) (start counters : Counters)
    (pieces : List Piece) (uncovered : Mask)
    (counted : ∀ entry ∈ scored, entry.mask.length = examples.length)
    (reached : Reached config grammar examples scored start (searching pieces uncovered)
      counters) :
    (∀ remaining : Mask, remaining.length = examples.length →
      (bestFor scored remaining = .ok none ↔ ∀ entry ∈ scored, ∀ index,
        ¬(entry.mask.marks index = true ∧ remaining.marks index = true))) ∧
    (∃ picks : List Pick, pieces = picks.map Pick.piece ∧
      (∀ earlier pick later, picks = earlier ++ pick :: later →
        pick.entry.candidate.compile = .ok pick.program ∧ ∃ before,
          Reached config grammar examples scored start
            (searching (earlier.map Pick.piece) before) start ∧
          EarliestBest scored before pick.entry pick.gain) ∧
      (picks.map Pick.gain).Pairwise (· ≥ ·) ∧
      (∀ pick ∈ picks, 1 ≤ pick.gain) ∧
      (∃ covered, Mask.unionAll examples.length (pieces.map Piece.mask) = .ok covered ∧
        (picks.map Pick.gain).sum = covered.count) ∧
      (picks.map Pick.entry).Nodup) ∧
    ∀ entry program, bestFor scored uncovered = .ok (some entry) →
      entry.candidate.compile = .ok program → ∃ left,
        Reached config grammar examples scored start
          (searching (pieces ++ [⟨program, entry.mask⟩]) left) start := by
  obtain ⟨rfl, picks, covered, run, rfl, rfl⟩ := reached_searching_iff.mp reached
  refine ⟨fun other same => ?_, ⟨picks, rfl, ?_, run.pairwise_gains, ?_, ?_, run.nodup_entries⟩, ?_⟩
  · exact bestFor_eq_none_iff fun entry inside => (counted entry inside).trans same.symm
  · rintro earlier pick later rfl
    obtain ⟨before, begun, best, compiled⟩ := run.exists_before
    exact ⟨compiled, _, reached_of_greedyPicks begun, best⟩
  · intro pick member
    obtain ⟨earlier, later, rfl⟩ := List.append_of_mem member
    obtain ⟨before, _, best, _⟩ := run.exists_before
    exact best.positive
  · rw [map_mask_piece]
    exact ⟨covered, run.union, run.sum_gains⟩
  · intro entry program found compiled
    obtain ⟨gain, best⟩ := bestFor_eq_some_iff.mp found
    have same : covered.length = entry.mask.length := by
      rw [run.length_eq, counted entry best.mem]
    have joined := (Mask.union_eq_ok_iff covered entry.mask _).mpr ⟨same, rfl⟩
    have further : GreedyPicks examples.length scored (picks ++ [⟨entry, program, gain⟩]) _ :=
      run.pick best compiled joined
    rw [show [Piece.mk program entry.mask] = [Pick.mk entry program gain].map Pick.piece from rfl,
      ← List.map_append]
    exact ⟨_, reached_of_greedyPicks further⟩

end Stage

namespace Ties

/-- Two variables and a literal. -/
def grammar : Grammar := ⟨["x", "y"], [4]⟩

/-- The first variable is right on the first example, both are on the second, and the second
variable and the literal are on the third. -/
def examples : List Example :=
  [⟨.ofList [("x", 1), ("y", 5)], .int 1⟩, ⟨.ofList [("x", 2), ("y", 2)], .int 2⟩,
    ⟨.ofList [("x", 3), ("y", 4)], .int 4⟩]

/-- The variables solve two examples each, the literal one. -/
def scored : List Scored :=
  [⟨.leaf (.var "x"), ⟨[true, true, false]⟩⟩, ⟨.leaf (.var "y"), ⟨[false, true, true]⟩⟩,
    ⟨.leaf (.number 4), ⟨[false, false, true]⟩⟩]

/-- All three have been checked. -/
def start : Counters := { Counters.zero with checked := 3 }

/-- The first variable is picked before the second, and the second before the literal. -/
def pieces : List Piece :=
  [⟨.var "x", ⟨[true, true, false]⟩⟩, ⟨.var "y", ⟨[false, true, true]⟩⟩]

/-- Two picks cover the examples. -/
theorem reached_pieces : Stage.Reached Smaller.config grammar examples scored start
    (.searching pieces (.empty 3)) start := by
  have first : Stage.Reached Smaller.config grammar examples scored start
      (.searching [⟨.var "x", ⟨[true, true, false]⟩⟩] ⟨[false, false, true]⟩) start :=
    .step .initial (by decide +kernel)
  exact .step first (by decide +kernel)

/-- The variables are picked in order, although others solve as many examples. -/
theorem pieces_in_order :
    (∀ entry ∈ scored, entry.mask.length = examples.length) ∧
    Stage.Reached Smaller.config grammar examples scored start (.searching pieces (.empty 3))
      start ∧
    (∀ remaining : Mask, remaining.length = examples.length →
      (bestFor scored remaining = .ok none ↔ ∀ entry ∈ scored, ∀ index,
        ¬(entry.mask.marks index = true ∧ remaining.marks index = true))) ∧
    (∃ picks : List Pick, pieces = picks.map Pick.piece ∧
      (∀ earlier pick later, picks = earlier ++ pick :: later →
        pick.entry.candidate.compile = .ok pick.program ∧ ∃ before,
          Stage.Reached Smaller.config grammar examples scored start
            (.searching (earlier.map Pick.piece) before) start ∧
          EarliestBest scored before pick.entry pick.gain) ∧
      (picks.map Pick.gain).Pairwise (· ≥ ·) ∧
      (∀ pick ∈ picks, 1 ≤ pick.gain) ∧
      (∃ covered, Mask.unionAll examples.length (pieces.map Piece.mask) = .ok covered ∧
        (picks.map Pick.gain).sum = covered.count) ∧
      (picks.map Pick.entry).Nodup) ∧
    ∀ entry program, bestFor scored (.empty 3) = .ok (some entry) →
      entry.candidate.compile = .ok program → ∃ left,
        Stage.Reached Smaller.config grammar examples scored start
          (.searching (pieces ++ [⟨program, entry.mask⟩]) left) start := by
  have counted : ∀ entry ∈ scored, entry.mask.length = examples.length := by decide
  exact ⟨counted, reached_pieces, Stage.greedy_picks_in_order Smaller.config grammar examples scored
    start start pieces (.empty 3) counted reached_pieces⟩

end Ties

end ProgramSynthesis
