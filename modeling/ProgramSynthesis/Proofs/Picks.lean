import ProgramSynthesis.Proofs.MarkedSets
import ProgramSynthesis.Proofs.Safety

/-!
# Picking pieces

A run picks pieces from the scored candidates until every example is covered or no candidate
solves an uncovered one. Every pick covers an example more, so a run stops picking after at most
as many picks as there are examples. From there it merges the pieces, or it ends without a
program.
-/

namespace ProgramSynthesis

variable {config : SearchConfig} {grammar : Grammar} {examples : List Example}
  {scored : List Scored} {start counters : Counters} {pieces : List Piece} {uncovered : Mask}

/-- Whether a piece is a scored candidate, compiled. -/
def Piece.DrawnFrom (scored : List Scored) (piece : Piece) : Prop :=
  ∃ entry ∈ scored, entry.candidate.compile = .ok piece.program ∧ entry.mask = piece.mask

namespace Stage

/-- The pieces that a run has picked when it stops picking, and what they leave uncovered:
nothing, or examples that no scored candidate solves. -/
structure FinalPicks (config : SearchConfig) (grammar : Grammar) (examples : List Example)
    (scored : List Scored) (start : Counters) (pieces : List Piece) (uncovered : Mask) :
    Prop where
  /-- The run has picked the pieces, which leave these examples uncovered. -/
  reached : Reached config grammar examples scored start (searching pieces uncovered) start
  /-- Nothing is uncovered, or no scored candidate solves any of it. -/
  ended : uncovered.count = 0 ∨ bestFor scored uncovered = .ok none

/-- Whether the pieces of a stage that still picks are scored candidates. -/
def Drawn (scored : List Scored) : Stage → Prop
  | searching collected _ => ∀ piece ∈ collected, piece.DrawnFrom scored
  | _ => True

/-- Pieces are picked from the scored candidates. -/
theorem drawn_of_reached {stage : Stage}
    (reached : Reached config grammar examples scored start stage counters) :
    stage.Drawn scored := by
  induction reached with
  | initial =>
    intro piece inside
    cases inside
  | step _ stepped ih =>
    cases moves_of_step stepped with
    | @pick collected uncovered _ entry program solved best compiled joined =>
      intro piece inside
      rcases List.mem_append.mp inside with old | new
      · exact ih piece old
      · rw [List.mem_singleton.mp new]
        exact ⟨entry, mem_of_bestFor best, compiled, rfl⟩
    | cover _ => trivial
    | start => trivial
    | merge _ => trivial
    | finish => trivial

/-- A run that picks ends the picks, picks a piece that solves some of what is uncovered and leaves
the rest, or gives up. -/
theorem step_searching_cases (typed : ∀ entry ∈ scored, grammar.WellTyped entry.candidate)
    (masked : ∀ entry ∈ scored, entry.candidate.mask examples = .ok entry.mask)
    {collected : List Piece}
    (reached : Reached config grammar examples scored start (searching collected uncovered)
      counters) :
    (uncovered.count = 0 ∧
      (searching collected uncovered).step config grammar examples scored counters =
        .ok (.next (covered collected) counters)) ∨
    (∃ piece gain left,
      (searching collected uncovered).step config grammar examples scored counters =
        .ok (.next (searching (collected ++ [piece]) left) counters) ∧
      piece.mask.countWithin uncovered = .ok gain ∧ 1 ≤ gain ∧
      left.count + gain = uncovered.count) ∨
    (uncovered.count ≠ 0 ∧ bestFor scored uncovered = .ok none ∧
      (searching collected uncovered).step config grammar examples scored counters =
        .ok (.stop ⟨none, counters⟩)) := by
  have sound := sound_of_reached masked reached
  have exact : (searching collected uncovered).Exact examples := sound.1
  obtain ⟨transition, stepped⟩ : ∃ transition,
      (searching collected uncovered).step config grammar examples scored counters =
        .ok transition := exists_step_searching typed masked exact
  by_cases done : uncovered.count = 0
  · exact .inl ⟨done, if_pos done⟩
  · have searched := stepped
    rw [step, if_neg done] at searched
    obtain ⟨best, found, searched⟩ := bind_eq_ok_iff.mp searched
    cases best with
    | none =>
      cases searched
      exact .inr (.inr ⟨done, found, stepped⟩)
    | some entry =>
      obtain ⟨program, _, searched⟩ := bind_eq_ok_iff.mp searched
      obtain ⟨solved, joined, searched⟩ := bind_eq_ok_iff.mp searched
      cases searched
      obtain ⟨before, unioned, rfl⟩ := exact
      obtain ⟨gain, gained, positive⟩ := gain_of_bestFor found
      rw [List.map_append, List.map_singleton, Mask.unionAll_append_singleton, unioned,
        ok_bind] at joined
      have split : solved.complement.count + gain = before.complement.count :=
        Mask.count_complement_of_union joined gained
      exact .inr (.inl ⟨⟨program, entry.mask⟩, gain, solved.complement, stepped, gained, positive,
        split⟩)

/-- A run stops picking, with no more pieces and uncovered examples together than before. Every
pick leaves fewer examples uncovered. -/
theorem exists_finalPicks (typed : ∀ entry ∈ scored, grammar.WellTyped entry.candidate)
    (masked : ∀ entry ∈ scored, entry.candidate.mask examples = .ok entry.mask)
    {collected : List Piece}
    (reached : Reached config grammar examples scored start (searching collected uncovered)
      start) :
    ∃ pieces left, FinalPicks config grammar examples scored start pieces left ∧
      pieces.length + left.count ≤ collected.length + uncovered.count := by
  induction measured : uncovered.count using Nat.strong_induction_on
    generalizing collected uncovered with
  | _ size ih =>
    rcases step_searching_cases typed masked reached with
      ⟨covers, _⟩ | ⟨piece, gain, left, stepped, _, positive, split⟩ | ⟨_, nothing, _⟩
    · exact ⟨collected, uncovered, ⟨reached, .inl covers⟩, by omega⟩
    · have fewer : left.count < size := by omega
      obtain ⟨pieces, remaining, final, few⟩ := ih left.count fewer (reached.step stepped) rfl
      rw [List.length_append, List.length_singleton] at few
      exact ⟨pieces, remaining, final, by omega⟩
    · exact ⟨collected, uncovered, ⟨reached, .inr nothing⟩, by omega⟩

namespace FinalPicks

/-- With examples uncovered at the end of the picks a run gives up. -/
theorem step_of_uncovered
    (final : FinalPicks config grammar examples scored start pieces uncovered)
    (remaining : uncovered.count ≠ 0) :
    (searching pieces uncovered).step config grammar examples scored start =
      .ok (.stop ⟨none, start⟩) := by
  have nothing : bestFor scored uncovered = .ok none := final.ended.resolve_left remaining
  rw [step, if_neg remaining, nothing, ok_bind]
  rfl

/-- With examples uncovered at the end of the picks a run ends without a program. -/
theorem run_of_uncovered
    (final : FinalPicks config grammar examples scored start pieces uncovered)
    (remaining : uncovered.count ≠ 0) :
    (initial examples).run config grammar examples scored start (exact_initial examples) =
      .ok ⟨none, start⟩ := by
  obtain ⟨exact, same⟩ := final.reached.run_eq
  rw [same]
  exact run_eq_of_stop exact (final.step_of_uncovered remaining)

/-- Pieces that leave nothing uncovered cover the examples. -/
theorem covering (masked : ∀ entry ∈ scored, entry.candidate.mask examples = .ok entry.mask)
    (final : FinalPicks config grammar examples scored start pieces uncovered)
    (covers : uncovered.count = 0) : Covering examples pieces := by
  obtain ⟨⟨solved, unioned, rfl⟩, picked⟩ := sound_of_reached masked final.reached
  have whole : solved = .full examples.length :=
    Mask.eq_full_of_count_complement (Mask.length_of_unionAll unioned).1 covers
  exact ⟨picked, whole ▸ unioned⟩

/-- The final picks leave nothing uncovered exactly when each example is solved by some scored
candidate. An entry that solves an uncovered example would have been picked. -/
theorem covers_iff_solves
    (masked : ∀ entry ∈ scored, entry.candidate.mask examples = .ok entry.mask)
    (final : FinalPicks config grammar examples scored start pieces uncovered) :
    uncovered.count = 0 ↔
      ∀ case ∈ examples, ∃ entry ∈ scored, entry.candidate.Solves case := by
  constructor
  · intro covers case inside
    obtain ⟨index, found⟩ := List.mem_iff_getElem?.mp inside
    have marked := Mask.marks_full (List.getElem?_eq_some_iff.mp found).1
    rw [Mask.marks_of_unionAll (final.covering masked covers).union, List.any_map,
      List.any_eq_true] at marked
    obtain ⟨piece, picked, solves⟩ := marked
    obtain ⟨entry, chosen, _, same⟩ := drawn_of_reached final.reached piece picked
    have marks : entry.mask.marks index = true := same ▸ solves
    exact ⟨entry, chosen, (Candidate.marks_iff_solves (masked entry chosen) found).mp marks⟩
  · intro solved
    by_contra remaining
    obtain ⟨index, left⟩ := Mask.exists_marks_of_count_ne_zero remaining
    obtain ⟨⟨all, unioned, rfl⟩, _⟩ := sound_of_reached masked final.reached
    have counted : all.complement.length = examples.length := by
      rw [Mask.length_complement, (Mask.length_of_unionAll unioned).1]
    have inside : index < examples.length := counted ▸ Mask.lt_length_of_marks left
    obtain ⟨entry, chosen, solves⟩ := solved _ (List.getElem_mem inside)
    have marked : entry.mask.marks index = true := (Candidate.marks_iff_solves
      (masked entry chosen) (List.getElem?_eq_getElem inside)).mpr solves
    have gain := bestFor_eq_none (final.ended.resolve_left remaining) entry chosen
    rw [Mask.marks_of_countWithin_eq_zero gain marked] at left
    cases left

/-- With no example uncovered at the end of the picks a run goes on with the first piece, and the
others wait. There is a first piece, since there is an example to cover. -/
theorem run_of_covered (nonempty : examples ≠ [])
    (masked : ∀ entry ∈ scored, entry.candidate.mask examples = .ok entry.mask)
    (final : FinalPicks config grammar examples scored start pieces uncovered)
    (covers : uncovered.count = 0) :
    ∃ first others, pieces = first :: others ∧
      Reached config grammar examples scored start (unifying first others) start ∧
      (initial examples).run config grammar examples scored start (exact_initial examples) =
        (unifying first others).run config grammar examples scored start trivial := by
  have covered : Reached config grammar examples scored start (covered pieces) start :=
    final.reached.step (if_pos covers)
  have union := (final.covering masked covers).union
  cases pieces with
  | nil =>
    have empty : Mask.empty examples.length = .full examples.length := Except.ok.inj union
    have counted := congrArg Mask.count empty
    rw [Mask.count_empty, Mask.count_full] at counted
    exact absurd (List.length_eq_zero_iff.mp counted.symm) nonempty
  | cons first others =>
    have waiting : Reached config grammar examples scored start (unifying first others) start :=
      covered.step rfl
    obtain ⟨_, same⟩ := waiting.run_eq
    exact ⟨first, others, rfl, waiting, same⟩

end FinalPicks

end Stage

end ProgramSynthesis
