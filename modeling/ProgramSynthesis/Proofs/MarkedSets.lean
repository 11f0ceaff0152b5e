import Mathlib.Data.Nat.Count
import ProgramSynthesis.Proofs.Marks

/-!
# Masks as sets

The examples that a mask marks, as a finite set of positions. Unions, complements and counts of
masks are those of their sets. So what a mask counts within another is the size of an
intersection, which can only shrink with the other mask.
-/

namespace ProgramSynthesis

namespace Mask

variable {mask left right both within : Mask} {length index gain : Nat}

/-- The positions of the marked examples. -/
def marked (mask : Mask) : Finset Nat :=
  (Finset.range mask.length).filter fun index => mask.marks index = true

/-- A position is in the set when the example there is marked. -/
@[simp] theorem mem_marked : index ∈ mask.marked ↔ mask.marks index = true := by
  rw [marked, Finset.mem_filter, Finset.mem_range]
  exact and_iff_right_of_imp lt_length_of_marks

/-- Only positions of examples are marked. -/
theorem marked_subset_range (mask : Mask) : mask.marked ⊆ Finset.range mask.length :=
  Finset.filter_subset _ _

/-- The bits of a mask are its marks, in order. -/
theorem bits_eq_map_marks (mask : Mask) : mask.bits = (List.range mask.length).map mask.marks := by
  apply List.ext_getElem?
  intro index
  rw [List.getElem?_map]
  by_cases inside : index < mask.length
  · rw [getElem?_bits_iff.mpr ⟨inside, rfl⟩, List.getElem?_range inside, Option.map_some]
  · have outside : mask.length ≤ index := Nat.not_lt.mp inside
    have beyond : (List.range mask.length).length ≤ index := by rwa [List.length_range]
    rw [List.getElem?_eq_none outside, List.getElem?_eq_none beyond, Option.map_none]

/-- As many examples are marked as the set has members. -/
theorem card_marked (mask : Mask) : mask.marked.card = mask.count := by
  rw [marked, ← Nat.count_eq_card_filter_range, count, bits_eq_map_marks, List.count,
    List.countP_map, Nat.count]
  apply List.countP_congr
  simp

/-- A union marks the union of the sets. -/
theorem marked_of_union (joined : left.union right = .ok both) :
    both.marked = left.marked ∪ right.marked := by
  ext index
  rw [Finset.mem_union, mem_marked, mem_marked, mem_marked, marks_of_union joined,
    Bool.or_eq_true]

/-- The complement marks what is left of all positions. -/
theorem marked_complement (mask : Mask) :
    mask.complement.marked = Finset.range mask.length \ mask.marked := by
  ext index
  rw [Finset.mem_sdiff, Finset.mem_range, mem_marked, mem_marked]
  constructor
  · intro marks
    have inside : index < mask.length := length_complement mask ▸ lt_length_of_marks marks
    rw [marks_complement inside, Bool.not_eq_true'] at marks
    exact ⟨inside, Bool.eq_false_iff.mp marks⟩
  · rintro ⟨inside, unmarked⟩
    rw [marks_complement inside, Bool.not_eq_true']
    exact Bool.eq_false_iff.mpr unmarked

/-- The bits that two masks have in common mark the intersection of the sets. -/
theorem marked_zipWith_and (mask within : Mask) :
    (Mask.mk (mask.bits.zipWith (· && ·) within.bits)).marked = mask.marked ∩ within.marked := by
  ext index
  rw [Finset.mem_inter, mem_marked, mem_marked, mem_marked, ← Bool.and_eq_true, marks, marks, marks,
    List.getD_eq_getElem?_getD, List.getD_eq_getElem?_getD, List.getD_eq_getElem?_getD,
    List.getElem?_zipWith]
  cases mask.bits[index]? with
  | none => simp
  | some bit =>
    cases within.bits[index]? with
    | none => simp
    | some other => rfl

/-- The count within a mask over as many examples is the size of the intersection. -/
theorem countWithin_eq_ok_iff_card : mask.countWithin within = .ok gain ↔
    mask.length = within.length ∧ (mask.marked ∩ within.marked).card = gain := by
  rw [countWithin_eq_ok_iff, ← marked_zipWith_and, card_marked, count]

/-- Every example is marked by a mask or by its complement. -/
theorem count_add_count_complement (mask : Mask) :
    mask.count + mask.complement.count = mask.length := by
  have split := Finset.card_sdiff_add_card_eq_card (marked_subset_range mask)
  rw [← marked_complement, card_marked, card_marked, Finset.card_range] at split
  omega

/-- A mask joined to a union takes from what is outside it what the mask counts there. -/
theorem count_complement_of_union (joined : left.union right = .ok both)
    (counted : right.countWithin left.complement = .ok gain) :
    both.complement.count + gain = left.complement.count := by
  obtain ⟨_, rfl⟩ := (countWithin_eq_ok_iff _ _ _).mp counted
  exact count_complement_union joined

/-- A mask joined to a union adds to it what the mask counts outside it. -/
theorem count_of_union (joined : left.union right = .ok both)
    (counted : right.countWithin left.complement = .ok gain) :
    both.count = left.count + gain := by
  have lengths := (length_of_union joined).1
  have outside := count_complement_of_union joined counted
  have before := count_add_count_complement left
  have after := count_add_count_complement both
  omega

/-- Less is left to mark outside a union than outside a part of it. -/
theorem marked_complement_subset (joined : left.union right = .ok both) :
    both.complement.marked ⊆ left.complement.marked := by
  have lengths := length_of_union joined
  rw [marked_complement, marked_complement, marked_of_union joined, lengths.1]
  exact Finset.sdiff_subset_sdiff (Finset.Subset.refl _) Finset.subset_union_left

/-- Within fewer examples no more is counted. -/
theorem countWithin_le_of_subset {narrow : Mask} {less more : Nat}
    (fewer : narrow.marked ⊆ within.marked) (counted : mask.countWithin narrow = .ok less)
    (known : mask.countWithin within = .ok more) : less ≤ more := by
  obtain ⟨_, rfl⟩ := countWithin_eq_ok_iff_card.mp counted
  obtain ⟨_, rfl⟩ := countWithin_eq_ok_iff_card.mp known
  exact Finset.card_le_card (Finset.inter_subset_inter_left fewer)

end Mask

end ProgramSynthesis
