import Mathlib.Algebra.Order.BigOperators.Group.Finset
import Mathlib.Tactic.Ring
import ProgramSynthesis.Proofs.PicksInOrder

/-!
# Quality of a greedy cover

Greedy picks are compared with any other cover drawn from the same entries. Whatever is left
uncovered, the entries of the other cover solve all of it together, so one of them solves its
share at least, and the best entry solves no less. A pick therefore takes at least one part in as
many as the other cover has entries, and what is left falls geometrically with the picks.
-/

namespace ProgramSynthesis

section

variable {count : Nat} {scored cover : List Scored} {picks : List Pick} {covered uncovered : Mask}

/-- The best entry solves its share of what a cover solves together. -/
theorem EarliestBest.count_le {entry : Scored} {gain : Nat}
    (best : EarliestBest scored uncovered entry gain) (drawn : ∀ other ∈ cover, other ∈ scored)
    (covers : ∀ index, uncovered.marks index = true →
      ∃ other ∈ cover, other.mask.marks index = true) :
    uncovered.count ≤ cover.length * gain := by
  have shared : uncovered.marked ⊆
      cover.toFinset.biUnion fun other => other.mask.marked ∩ uncovered.marked := by
    intro index left
    obtain ⟨other, member, marks⟩ := covers index (Mask.mem_marked.mp left)
    have both := Finset.mem_inter.mpr ⟨Mask.mem_marked.mpr marks, left⟩
    exact Finset.mem_biUnion.mpr ⟨other, List.mem_toFinset.mpr member, both⟩
  have each : ∀ other ∈ cover.toFinset,
      (other.mask.marked ∩ uncovered.marked).card ≤ gain := by
    intro other member
    have inside := drawn other (List.mem_toFinset.mp member)
    obtain ⟨amount, bounded, counted⟩ := best.exists_amount inside
    rw [(Mask.countWithin_eq_ok_iff_card.mp counted).2]
    exact bounded
  calc
    uncovered.count = uncovered.marked.card := (Mask.card_marked uncovered).symm
    _ ≤ (cover.toFinset.biUnion fun other => other.mask.marked ∩ uncovered.marked).card :=
      Finset.card_le_card shared
    _ ≤ cover.toFinset.card * gain := Finset.card_biUnion_le_card_mul _ _ _ each
    _ ≤ cover.length * gain := Nat.mul_le_mul_right gain (List.toFinset_card_le cover)

/-- Where a part is taken that is at least one in `parts`, at most the others are left. -/
theorem left_mul_le {left whole gain parts : Nat} (split : left + gain = whole)
    (share : whole ≤ parts * gain) : left * parts ≤ whole * (parts - 1) := by
  have scaled : left * parts + parts * gain = whole * parts := by
    rw [← split, Nat.add_mul, Nat.mul_comm gain]
  rw [Nat.mul_sub_one]
  omega

/-- What greedy picks leave uncovered falls geometrically with their number, at the rate that the
size of any cover sets. -/
theorem GreedyPicks.uncovered_mul_pow_le (run : GreedyPicks count scored picks covered)
    (drawn : ∀ entry ∈ cover, entry ∈ scored)
    (covers : ∀ index < count, ∃ entry ∈ cover, entry.mask.marks index = true) :
    covered.complement.count * cover.length ^ picks.length ≤
      count * (cover.length - 1) ^ picks.length := by
  induction run with
  | none => simp
  | @pick picks covered pick all before best _ joined ih =>
    have inside : ∀ index, covered.complement.marks index = true → index < count := by
      intro index left
      have bounded := Mask.lt_length_of_marks left
      rwa [Mask.length_complement, before.length_eq] at bounded
    have share : covered.complement.count ≤ cover.length * pick.gain :=
      best.count_le drawn fun index left => covers index (inside index left)
    have rest : all.complement.count * cover.length ≤
        covered.complement.count * (cover.length - 1) :=
      left_mul_le (Mask.count_complement_of_union joined best.gained) share
    rw [List.length_append, List.length_singleton]
    calc
      all.complement.count * cover.length ^ (picks.length + 1) =
          all.complement.count * cover.length * cover.length ^ picks.length := by ring
      _ ≤ covered.complement.count * (cover.length - 1) * cover.length ^ picks.length :=
        Nat.mul_le_mul_right _ rest
      _ = covered.complement.count * cover.length ^ picks.length * (cover.length - 1) := by ring
      _ ≤ count * (cover.length - 1) ^ picks.length * (cover.length - 1) :=
        Nat.mul_le_mul_right _ ih
      _ = count * (cover.length - 1) ^ (picks.length + 1) := by ring

/-- Greedy covers are good. Let some of the scored entries cover all examples together. After any
number of the picks that a run makes, the examples left uncovered, times the size of that cover to
the power of the picks, are at most all examples, times one less than its size to that power. As
long as another pick follows, an example is left, so this bounds the number of picks, and with it
the number of conditionals. -/
theorem Stage.greedy_cover_quality (config : SearchConfig) (grammar : Grammar)
    (examples : List Example) (scored cover : List Scored) (start counters : Counters)
    (pieces : List Piece) (uncovered : Mask) (made : Nat)
    (drawn : ∀ entry ∈ cover, entry ∈ scored)
    (covers : ∀ index < examples.length, ∃ entry ∈ cover, entry.mask.marks index = true)
    (reached : Reached config grammar examples scored start (searching pieces uncovered) counters)
    (few : made ≤ pieces.length) :
    (∃ left, Reached config grammar examples scored start
        (searching (pieces.take made) left) start ∧
      left.count * cover.length ^ made ≤ examples.length * (cover.length - 1) ^ made) ∧
    (made < pieces.length →
      cover.length ^ made ≤ examples.length * (cover.length - 1) ^ made) := by
  obtain ⟨_, picks, covered, run, rfl, _⟩ := reached_searching_iff.mp reached
  rw [List.length_map] at few ⊢
  obtain ⟨before, begun, remains⟩ := run.exists_take few
  have bounded := begun.uncovered_mul_pow_le drawn covers
  rw [List.length_take, Nat.min_eq_left few] at bounded
  refine ⟨⟨before.complement, ?_, bounded⟩, fun less => ?_⟩
  · rw [← List.map_take]
    exact reached_of_greedyPicks begun
  · have positive : 0 < before.complement.count := Nat.pos_of_ne_zero (remains less)
    exact Nat.le_trans (Nat.le_mul_of_pos_left _ positive) bounded

end

namespace Ties

/-- A cover of the examples with two entries, one of which no run picks. -/
def cover : List Scored :=
  [⟨.leaf (.var "x"), ⟨[true, true, false]⟩⟩, ⟨.leaf (.number 4), ⟨[false, false, true]⟩⟩]

/-- One pick leaves no more than half of the examples uncovered. -/
theorem quality_of_pieces :
    (∀ entry ∈ cover, entry ∈ scored) ∧
    (∀ index < examples.length, ∃ entry ∈ cover, entry.mask.marks index = true) ∧
    Stage.Reached Smaller.config grammar examples scored start (.searching pieces (.empty 3))
      start ∧
    1 ≤ pieces.length ∧
    (∃ left, Stage.Reached Smaller.config grammar examples scored start
        (.searching (pieces.take 1) left) start ∧
      left.count * 2 ^ 1 ≤ examples.length * (2 - 1) ^ 1) ∧
    (1 < pieces.length → 2 ^ 1 ≤ examples.length * (2 - 1) ^ 1) := by
  have drawn : ∀ entry ∈ cover, entry ∈ scored := by decide
  have covers : ∀ index < examples.length, ∃ entry ∈ cover, entry.mask.marks index = true := by
    decide
  have few : 1 ≤ pieces.length := by decide
  exact ⟨drawn, covers, reached_pieces, few, Stage.greedy_cover_quality Smaller.config grammar
    examples scored cover start start pieces (.empty 3) 1 drawn covers reached_pieces few⟩

end Ties

end ProgramSynthesis
