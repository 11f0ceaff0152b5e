import ProgramSynthesis.Proofs.Cover
import ProgramSynthesis.Proofs.MarkedSets
import ProgramSynthesis.Search.Unification

/-!
# Greedy picks

What greedy picks are, apart from the machine that makes them: each is the earliest of the scored
entries that solve the most of what is still uncovered, and solves some of it. Fewer examples are
left uncovered after every pick, so no entry gains more later than earlier: the gains do not
increase, and an entry that was picked gains nothing any more.
-/

namespace ProgramSynthesis

/-- Whether an entry is the earliest of those that solve the most uncovered examples, and solves
some: the entries before it solve fewer, and those after it no more. -/
structure EarliestBest (scored : List Scored) (uncovered : Mask) (entry : Scored) (gain : Nat) :
    Prop where
  /-- The number of uncovered examples that the entry solves. -/
  gained : entry.mask.countWithin uncovered = .ok gain
  /-- It solves some. -/
  positive : 1 ≤ gain
  /-- The entries before it solve fewer, those after it no more. -/
  earliest : ∃ earlier later, scored = earlier ++ entry :: later ∧
    (∀ other ∈ earlier, ∃ amount < gain, other.mask.countWithin uncovered = .ok amount) ∧
    ∀ other ∈ later, ∃ amount ≤ gain, other.mask.countWithin uncovered = .ok amount

/-- An entry that is picked, its program, and how many uncovered examples it solves then. -/
structure Pick where
  /-- The entry. -/
  entry : Scored
  /-- Its candidate, compiled. -/
  program : Expr
  /-- The number of uncovered examples that it solves. -/
  gain : Nat
deriving DecidableEq, Repr

/-- The piece that is collected with a pick. -/
def Pick.piece (pick : Pick) : Piece := ⟨pick.program, pick.entry.mask⟩

/-- The pieces of some picks have the masks of their entries. -/
theorem map_mask_piece (picks : List Pick) :
    (picks.map Pick.piece).map Piece.mask = picks.map fun pick => pick.entry.mask := by
  rw [List.map_map]
  rfl

/-- Picks made one after the other among scored entries over `count` examples, and the examples
that they cover together. -/
inductive GreedyPicks (count : Nat) (scored : List Scored) : List Pick → Mask → Prop where
  /-- Before the first pick nothing is covered. -/
  | none : GreedyPicks count scored [] (.empty count)
  /-- The best entry for what is uncovered is picked. -/
  | pick {picks covered pick all} (before : GreedyPicks count scored picks covered)
    (best : EarliestBest scored covered.complement pick.entry pick.gain)
    (compiled : pick.entry.candidate.compile = .ok pick.program)
    (joined : covered.union pick.entry.mask = .ok all) :
    GreedyPicks count scored (picks ++ [pick]) all

section

variable {scored : List Scored} {uncovered : Mask} {entry other : Scored} {gain amount : Nat}

namespace EarliestBest

/-- The best entry is one of the scored ones. -/
theorem mem (best : EarliestBest scored uncovered entry gain) : entry ∈ scored := by
  obtain ⟨earlier, later, rfl, _⟩ := best.earliest
  exact List.mem_append_right earlier List.mem_cons_self

/-- No entry solves more uncovered examples than the best one. -/
theorem exists_amount (best : EarliestBest scored uncovered entry gain)
    (inside : other ∈ scored) :
    ∃ amount ≤ gain, other.mask.countWithin uncovered = .ok amount := by
  obtain ⟨earlier, later, rfl, before, after⟩ := best.earliest
  rcases List.mem_append.mp inside with old | new
  · obtain ⟨amount, less, counted⟩ := before other old
    exact ⟨amount, Nat.le_of_lt less, counted⟩
  · rcases List.mem_cons.mp new with rfl | new
    · exact ⟨gain, Nat.le_refl _, best.gained⟩
    · exact after other new

/-- What an entry solves of the uncovered examples is at most what the best one solves. -/
theorem amount_le (best : EarliestBest scored uncovered entry gain) (inside : other ∈ scored)
    (counted : other.mask.countWithin uncovered = .ok amount) : amount ≤ gain := by
  obtain ⟨most, bounded, known⟩ := best.exists_amount inside
  have same : amount = most := Except.ok.inj (counted.symm.trans known)
  omega

/-- Where there is a best entry some example is uncovered. -/
theorem count_ne_zero (best : EarliestBest scored uncovered entry gain) : uncovered.count ≠ 0 := by
  obtain ⟨index, _, within⟩ := Mask.exists_marks_of_countWithin best.gained best.positive
  rw [← Mask.card_marked, Finset.card_ne_zero]
  exact ⟨index, Mask.mem_marked.mpr within⟩

/-- A best entry does not stand among entries that solve fewer examples than another best one. -/
theorem notMem_earlier (best : EarliestBest scored uncovered entry gain)
    (rival : EarliestBest scored uncovered other amount) {earlier : List Scored}
    (before : ∀ first ∈ earlier, ∃ less < amount,
      first.mask.countWithin uncovered = .ok less) : entry ∉ earlier := by
  intro inside
  obtain ⟨less, smaller, counted⟩ := before entry inside
  have same : gain = less := Except.ok.inj (best.gained.symm.trans counted)
  have bounded : amount ≤ gain := best.amount_le rival.mem rival.gained
  omega

/-- The best entry is the only one. Of two best entries neither can stand before the other. -/
theorem entry_eq (best : EarliestBest scored uncovered entry gain)
    (rival : EarliestBest scored uncovered other amount) : entry = other := by
  obtain ⟨earlier, later, same, before, _⟩ := best.earliest
  obtain ⟨earlier', later', same', before', _⟩ := rival.earliest
  rcases List.append_eq_append_iff.mp (same.symm.trans same') with
    ⟨between, rfl, rest⟩ | ⟨between, rfl, rest⟩
  · cases between with
    | nil => exact (List.cons.inj rest).1
    | cons first between =>
      have leads : entry = first := (List.cons.inj rest).1
      exact absurd (by simp [leads]) (best.notMem_earlier rival before')
  · cases between with
    | nil => exact (List.cons.inj rest).1.symm
    | cons first between =>
      have leads : other = first := (List.cons.inj rest).1
      exact absurd (by simp [leads]) (rival.notMem_earlier best before)

end EarliestBest

/-- The entry that is looked for is the earliest of those that solve the most. -/
theorem bestFor_eq_some_iff : bestFor scored uncovered = .ok (some entry) ↔
    ∃ gain, EarliestBest scored uncovered entry gain := by
  constructor
  · intro found
    obtain ⟨earlier, later, most, same, gained, positive, before, after⟩ := bestFor_eq_some found
    exact ⟨most, gained, positive, earlier, later, same, before, after⟩
  · rintro ⟨gain, best⟩
    have lengths : ∀ other ∈ scored, other.mask.length = uncovered.length := by
      intro other inside
      obtain ⟨amount, _, counted⟩ := best.exists_amount inside
      exact ((Mask.countWithin_eq_ok_iff _ _ _).mp counted).1
    obtain ⟨result, found⟩ := exists_bestFor lengths
    cases result with
    | none =>
      have nothing := bestFor_eq_none found entry best.mem
      have zero : gain = 0 := Except.ok.inj (best.gained.symm.trans nothing)
      have positive := best.positive
      omega
    | some other =>
      obtain ⟨earlier, later, most, same, gained, positive, before, after⟩ :=
        bestFor_eq_some found
      have rival : EarliestBest scored uncovered other most :=
        ⟨gained, positive, earlier, later, same, before, after⟩
      rw [found, best.entry_eq rival]

/-- Among masks over the uncovered examples there is no best entry exactly when no entry solves one
of these. -/
theorem bestFor_eq_none_iff (counted : ∀ entry ∈ scored, entry.mask.length = uncovered.length) :
    bestFor scored uncovered = .ok none ↔
      ∀ entry ∈ scored, ∀ index,
        ¬(entry.mask.marks index = true ∧ uncovered.marks index = true) := by
  constructor
  · rintro nothing entry inside index ⟨marked, within⟩
    have unmarked : uncovered.marks index = false :=
      Mask.marks_of_countWithin_eq_zero (bestFor_eq_none nothing entry inside) marked
    exact Bool.false_ne_true (unmarked.symm.trans within)
  · intro apart
    obtain ⟨result, found⟩ := exists_bestFor counted
    cases result with
    | none => exact found
    | some entry =>
      obtain ⟨gain, gained, positive⟩ := gain_of_bestFor found
      obtain ⟨index, both⟩ := Mask.exists_marks_of_countWithin gained positive
      exact absurd both (apart entry (mem_of_bestFor found) index)

end

namespace GreedyPicks

variable {count : Nat} {scored : List Scored} {picks : List Pick} {covered : Mask}

/-- Picks cover the union of their masks. -/
theorem union (run : GreedyPicks count scored picks covered) :
    Mask.unionAll count (picks.map fun pick => pick.entry.mask) = .ok covered := by
  induction run with
  | none => rfl
  | pick _ _ _ joined ih =>
    rw [List.map_append, List.map_singleton, Mask.unionAll_append_singleton, ih, ok_bind, joined]

/-- Picks cover some of the examples. -/
theorem length_eq (run : GreedyPicks count scored picks covered) : covered.length = count :=
  (Mask.length_of_unionAll run.union).1

/-- Each pick is the best entry after the picks before it, compiled. -/
theorem exists_before {earlier later : List Pick} {pick : Pick}
    (run : GreedyPicks count scored (earlier ++ pick :: later) covered) :
    ∃ before, GreedyPicks count scored earlier before ∧
      EarliestBest scored before.complement pick.entry pick.gain ∧
      pick.entry.candidate.compile = .ok pick.program := by
  generalize same : earlier ++ pick :: later = picks at run
  induction run generalizing later with
  | none => simp at same
  | @pick picks covered last all before best compiled _ ih =>
    rcases List.eq_nil_or_concat later with rfl | ⟨init, final, rfl⟩
    · obtain ⟨rfl, single⟩ := List.append_inj' same rfl
      obtain rfl : pick = last := List.head_eq_of_cons_eq single
      exact ⟨covered, before, best, compiled⟩
    · rw [List.concat_eq_append, ← List.cons_append, ← List.append_assoc] at same
      exact ih (List.append_inj_left' same rfl)

/-- The first of greedy picks are greedy picks; as long as another follows, they leave an example
uncovered. -/
theorem exists_take (run : GreedyPicks count scored picks covered) {made : Nat}
    (few : made ≤ picks.length) :
    ∃ before, GreedyPicks count scored (picks.take made) before ∧
      (made < picks.length → before.complement.count ≠ 0) := by
  rcases Nat.lt_or_eq_of_le few with less | rfl
  · have split : picks = picks.take made ++ picks[made] :: picks.drop (made + 1) := by
      rw [List.cons_getElem_drop_succ, List.take_append_drop]
    rw [split] at run
    obtain ⟨before, begun, best, _⟩ := run.exists_before
    exact ⟨before, begun, fun _ => best.count_ne_zero⟩
  · rw [List.take_length]
    exact ⟨covered, run, fun more => absurd more (Nat.lt_irrefl _)⟩

/-- Together the picks gain what they cover. -/
theorem sum_gains (run : GreedyPicks count scored picks covered) :
    (picks.map Pick.gain).sum = covered.count := by
  induction run with
  | none => simp
  | @pick picks covered pick all _ best _ joined ih =>
    rw [Mask.count_of_union joined best.gained, ← ih]
    simp

/-- There are no more picks than covered examples. -/
theorem length_le_count (run : GreedyPicks count scored picks covered) :
    picks.length ≤ covered.count := by
  induction run with
  | none => simp
  | @pick picks covered pick all _ best _ joined ih =>
    have grown : all.count = covered.count + pick.gain := Mask.count_of_union joined best.gained
    have gained : 1 ≤ pick.gain := best.positive
    rw [List.length_append, List.length_singleton]
    omega

/-- No entry solves more of what is left uncovered than any pick gained: of what was uncovered
when that pick was made it solves no less. -/
theorem amount_le_gain (run : GreedyPicks count scored picks covered) {other : Scored}
    (inside : other ∈ scored) {amount : Nat}
    (counted : other.mask.countWithin covered.complement = .ok amount) :
    ∀ pick ∈ picks, amount ≤ pick.gain := by
  induction run generalizing amount with
  | none => simp
  | @pick picks covered last all _ best _ joined ih =>
    have fewer := Mask.marked_complement_subset joined
    obtain ⟨more, bounded, known⟩ := best.exists_amount inside
    have shrinks : amount ≤ more := Mask.countWithin_le_of_subset fewer counted known
    intro pick member
    rcases List.mem_append.mp member with old | new
    · exact Nat.le_trans shrinks (ih known pick old)
    · rw [List.mem_singleton.mp new]
      exact Nat.le_trans shrinks bounded

/-- No pick gains more than one before it. -/
theorem pairwise_gains (run : GreedyPicks count scored picks covered) :
    (picks.map Pick.gain).Pairwise (· ≥ ·) := by
  induction run with
  | none => exact List.Pairwise.nil
  | @pick picks covered last all before best _ _ ih =>
    rw [List.map_append, List.map_singleton, List.pairwise_append]
    refine ⟨ih, List.pairwise_singleton _ _, ?_⟩
    intro gain earned most single
    obtain ⟨pick, member, rfl⟩ := List.mem_map.mp earned
    rw [List.mem_singleton.mp single]
    exact before.amount_le_gain best.mem best.gained pick member

/-- What a pick solves is covered. -/
theorem marked_subset (run : GreedyPicks count scored picks covered) {pick : Pick}
    (member : pick ∈ picks) : pick.entry.mask.marked ⊆ covered.marked := by
  intro index marks
  rw [Mask.mem_marked] at marks ⊢
  rw [Mask.marks_of_unionAll run.union, List.any_map, List.any_eq_true]
  exact ⟨pick, member, marks⟩

/-- No entry is picked twice. A pick solves something uncovered, which the same entry would have
covered before. -/
theorem nodup_entries (run : GreedyPicks count scored picks covered) :
    (picks.map Pick.entry).Nodup := by
  induction run with
  | none => exact List.nodup_nil
  | @pick picks covered last all before best _ _ ih =>
    rw [List.map_append, List.map_singleton, List.nodup_append]
    refine ⟨ih, List.nodup_singleton _, ?_⟩
    intro entry chosen again single same
    obtain ⟨pick, member, rfl⟩ := List.mem_map.mp chosen
    rw [List.mem_singleton.mp single] at same
    obtain ⟨index, marked, within⟩ := Mask.exists_marks_of_countWithin best.gained best.positive
    have solved : index ∈ pick.entry.mask.marked := by rwa [same, Mask.mem_marked]
    have covers := before.marked_subset member solved
    rw [← Mask.mem_marked, Mask.marked_complement, Finset.mem_sdiff] at within
    exact within.2 covers

end GreedyPicks

end ProgramSynthesis
