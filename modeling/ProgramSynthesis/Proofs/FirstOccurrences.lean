import Mathlib.Data.List.Forall2
import Mathlib.Data.List.Nodup
import ProgramSynthesis.Growth.Basic

/-!
# First occurrences

`firsts key seen` keeps the members of a list whose key is neither seen nor the key of an
earlier member. Two lists are interchangeable under a key when they have the same first
occurrences, in the same order. Interchangeable lists stay so under everything a round of
growth does with them: joining, selecting by a test that the key decides, choosing operands,
and building from the chosen operands.
-/

namespace ProgramSynthesis

variable {α β γ δ : Type} [DecidableEq β] [DecidableEq δ]

/-- The members whose key is not seen and does not occur earlier. -/
def firsts (key : α → β) (seen : List β) : List α → List α
  | [] => []
  | member :: members =>
    if key member ∈ seen then firsts key seen members
    else member :: firsts key (key member :: seen) members

variable {key : α → β} {seen other : List β} {members : List α}

/-- Only the keys that occur in the list matter among those that are seen. -/
theorem firsts_congr_seen (same : ∀ member ∈ members, key member ∈ seen ↔ key member ∈ other) :
    firsts key seen members = firsts key other members := by
  induction members generalizing seen other with
  | nil => rfl
  | cons member members ih =>
    have tail := fun later inside => same later (List.mem_cons_of_mem member inside)
    unfold firsts
    by_cases old : key member ∈ seen
    · rw [if_pos old, if_pos ((same member List.mem_cons_self).mp old)]
      exact ih tail
    · rw [if_neg old, if_neg fun again => old ((same member List.mem_cons_self).mpr again)]
      congr 1
      apply ih
      intro later inside
      rw [List.mem_cons, List.mem_cons, tail later inside]

/-- Keys that tell the same members apart pick the same first occurrences. -/
theorem firsts_congr_key {mark : α → δ} {earlier : List α}
    (same : ∀ left ∈ earlier ++ members, ∀ right ∈ earlier ++ members,
      key left = key right ↔ mark left = mark right) :
    firsts key (earlier.map key) members = firsts mark (earlier.map mark) members := by
  induction members generalizing earlier with
  | nil => rfl
  | cons member members ih =>
    have met : key member ∈ earlier.map key ↔ mark member ∈ earlier.map mark := by
      rw [List.mem_map, List.mem_map]
      exact exists_congr fun before => and_congr_right fun inside =>
        same before (List.mem_append_left _ inside) member (by simp)
    rw [firsts, firsts]
    by_cases old : key member ∈ earlier.map key
    · have within : earlier ++ members ⊆ earlier ++ member :: members := by simp
      rw [if_pos old, if_pos (met.mp old)]
      exact ih fun left inside right there => same left (within inside) right (within there)
    · have within : (member :: earlier) ++ members ⊆ earlier ++ member :: members :=
        List.perm_middle.symm.subset
      rw [if_neg old, if_neg fun again => old (met.mpr again), ← List.map_cons, ← List.map_cons]
      exact congrArg (member :: ·)
        (ih fun left inside right there => same left (within inside) right (within there))

/-- Keys that tell the members of a list apart alike pick the same first occurrences from it. -/
theorem firsts_congr {mark : α → δ} (same : ∀ left ∈ members, ∀ right ∈ members,
    key left = key right ↔ mark left = mark right) :
    firsts key [] members = firsts mark [] members := by
  have apart : ∀ left ∈ [] ++ members, ∀ right ∈ [] ++ members,
      key left = key right ↔ mark left = mark right := same
  exact firsts_congr_key apart

/-- What follows a list is kept as far as its keys do not occur in that list either. -/
theorem firsts_append (members later : List α) :
    firsts key seen (members ++ later) =
      firsts key seen members ++ firsts key (members.map key ++ seen) later := by
  induction members generalizing seen with
  | nil => rfl
  | cons member members ih =>
    rw [List.cons_append, firsts, firsts]
    by_cases old : key member ∈ seen
    · rw [if_pos old, if_pos old, ih]
      congr 1
      apply firsts_congr_seen
      intro candidate _
      simp only [List.map_cons, List.mem_append, List.mem_cons]
      constructor
      · exact Or.imp_left Or.inr
      · rintro ((same | earlier) | before)
        · exact .inr (same ▸ old)
        · exact .inl earlier
        · exact .inr before
    · rw [if_neg old, if_neg old, ih, List.cons_append]
      congr 2
      apply firsts_congr_seen
      intro candidate _
      simp only [List.map_cons, List.mem_append, List.mem_cons]
      tauto

/-- Every key that is not seen keeps exactly one member. -/
theorem mem_map_firsts (wanted : β) :
    wanted ∈ (firsts key seen members).map key ↔ wanted ∈ members.map key ∧ wanted ∉ seen := by
  induction members generalizing seen with
  | nil => simp [firsts]
  | cons member members ih =>
    unfold firsts
    by_cases old : key member ∈ seen
    · rw [if_pos old, ih, List.map_cons, List.mem_cons]
      constructor
      · rintro ⟨inside, new⟩
        exact ⟨.inr inside, new⟩
      · rintro ⟨rfl | inside, new⟩
        · exact absurd old new
        · exact ⟨inside, new⟩
    · rw [if_neg old, List.map_cons, List.mem_cons, ih, List.map_cons, List.mem_cons,
        List.mem_cons]
      constructor
      · rintro (rfl | ⟨inside, new⟩)
        · exact ⟨.inl rfl, old⟩
        · exact ⟨.inr inside, fun again => new (.inr again)⟩
      · rintro ⟨rfl | inside, new⟩
        · exact .inl rfl
        · by_cases again : wanted = key member
          · exact .inl again
          · exact .inr ⟨inside, fun found => found.elim again new⟩

/-- First occurrences keep their order. -/
theorem firsts_sublist (members : List α) : (firsts key seen members).Sublist members := by
  induction members generalizing seen with
  | nil => exact .slnil
  | cons member members ih =>
    unfold firsts
    split
    · exact .cons _ ih
    · exact .cons_cons _ ih

/-- The members kept have pairwise different keys. -/
theorem nodup_map_firsts : ((firsts key seen members).map key).Nodup := by
  induction members generalizing seen with
  | nil => exact .nil
  | cons member members ih =>
    unfold firsts
    split
    · exact ih
    · rw [List.map_cons, List.nodup_cons]
      refine ⟨fun again => ?_, ih⟩
      exact ((mem_map_firsts _).mp again).2 List.mem_cons_self

/-- The members kept are those whose key is not seen and occurs nowhere before them. -/
theorem mem_firsts_iff {member : α} : member ∈ firsts key seen members ↔
    key member ∉ seen ∧ ∃ before after, members = before ++ member :: after ∧
      key member ∉ before.map key := by
  constructor
  · intro kept
    induction members generalizing seen with
    | nil => cases kept
    | cons head tail ih =>
      unfold firsts at kept
      by_cases old : key head ∈ seen
      · rw [if_pos old] at kept
        obtain ⟨new, before, after, rfl, absent⟩ := ih kept
        have differs : key member ≠ key head := fun same => new (same ▸ old)
        refine ⟨new, head :: before, after, rfl, ?_⟩
        rw [List.map_cons, List.mem_cons, not_or]
        exact ⟨differs, absent⟩
      · rw [if_neg old] at kept
        rcases List.mem_cons.mp kept with rfl | later
        · exact ⟨old, [], tail, rfl, List.not_mem_nil⟩
        · obtain ⟨new, before, after, rfl, absent⟩ := ih later
          rw [List.mem_cons, not_or] at new
          refine ⟨new.2, head :: before, after, rfl, ?_⟩
          rw [List.map_cons, List.mem_cons, not_or]
          exact ⟨new.1, absent⟩
  · rintro ⟨new, before, after, rfl, absent⟩
    have unmet : key member ∉ before.map key ++ seen := by
      rw [List.mem_append, not_or]
      exact ⟨absent, new⟩
    rw [firsts_append, firsts, if_neg unmet]
    exact List.mem_append_right _ List.mem_cons_self

/-- A member that is kept comes up before every member that is kept after it. -/
theorem pairwise_idxOf_firsts [DecidableEq α] : (firsts key seen members).Pairwise
    fun left right => members.idxOf left < members.idxOf right := by
  induction members generalizing seen with
  | nil => exact .nil
  | cons head tail ih =>
    have shift : ∀ known : List β, key head ∈ known → (firsts key known tail).Pairwise
        fun left right => (head :: tail).idxOf left < (head :: tail).idxOf right := by
      intro known old
      have apart : ∀ member ∈ firsts key known tail, head ≠ member := by
        rintro member kept rfl
        exact (mem_firsts_iff.mp kept).1 old
      refine ih.imp_of_mem fun {left right} inside within before => ?_
      rw [List.idxOf_cons_ne _ (apart left inside), List.idxOf_cons_ne _ (apart right within)]
      exact Nat.succ_lt_succ before
    unfold firsts
    by_cases old : key head ∈ seen
    · rw [if_pos old]
      exact shift seen old
    · rw [if_neg old, List.pairwise_cons]
      refine ⟨fun member kept => ?_, shift _ List.mem_cons_self⟩
      have differs : head ≠ member := by
        rintro rfl
        exact (mem_firsts_iff.mp kept).1 List.mem_cons_self
      rw [List.idxOf_cons_self, List.idxOf_cons_ne _ differs]
      exact Nat.succ_pos _

/-- A member whose key is not seen stands at or behind a member of its key that is kept. -/
theorem exists_mem_firsts_of_getElem? {index : Nat} {member : α}
    (found : members[index]? = some member) (new : key member ∉ seen) :
    ∃ place ≤ index, ∃ kept ∈ firsts key seen members,
      members[place]? = some kept ∧ key kept = key member := by
  induction members generalizing seen index with
  | nil => cases found
  | cons head tail ih =>
    by_cases same : key head = key member
    · have kept : head ∈ firsts key seen (head :: tail) :=
        mem_firsts_iff.mpr ⟨same ▸ new, [], tail, rfl, List.not_mem_nil⟩
      exact ⟨0, Nat.zero_le index, head, kept, rfl, same⟩
    · cases index with
      | zero => exact absurd (congrArg key (Option.some.inj found)) same
      | succ index =>
        unfold firsts
        by_cases old : key head ∈ seen
        · obtain ⟨place, bound, kept, inside, there, alike⟩ := ih found new
          rw [if_pos old]
          exact ⟨place + 1, Nat.succ_le_succ bound, kept, inside, there, alike⟩
        · have fresh : key member ∉ key head :: seen := by
            rw [List.mem_cons, not_or]
            exact ⟨Ne.symm same, new⟩
          obtain ⟨place, bound, kept, inside, there, alike⟩ := ih found fresh
          rw [if_neg old]
          exact ⟨place + 1, Nat.succ_le_succ bound, kept, List.mem_cons_of_mem _ inside, there,
            alike⟩

/-- The first occurrences among images are the images of the first occurrences. -/
theorem firsts_map (build : γ → α) (members : List γ) :
    firsts key seen (members.map build) = (firsts (key ∘ build) seen members).map build := by
  induction members generalizing seen with
  | nil => rfl
  | cons member members ih =>
    rw [List.map_cons, firsts, firsts, Function.comp_apply]
    by_cases old : key (build member) ∈ seen
    · rw [if_pos old, if_pos old, ih]
    · rw [if_neg old, if_neg old, ih, List.map_cons]

/-- A second pass finds nothing to remove. -/
theorem firsts_firsts : firsts key seen (firsts key seen members) = firsts key seen members := by
  induction members generalizing seen with
  | nil => rfl
  | cons member members ih =>
    rw [firsts]
    by_cases old : key member ∈ seen
    · rw [if_pos old]
      exact ih
    · rw [if_neg old, firsts, if_neg old, ih]

/-- A key that is seen is a key whose members are removed afterwards. -/
theorem filter_firsts (outer : List β) :
    (firsts key seen members).filter (fun member => key member ∉ outer) =
      firsts key (outer ++ seen) members := by
  induction members generalizing seen with
  | nil => rfl
  | cons member members ih =>
    unfold firsts
    by_cases old : key member ∈ seen
    · rw [if_pos old, if_pos (List.mem_append_right outer old), ih]
    · rw [if_neg old, List.filter_cons]
      by_cases removed : key member ∈ outer
      · rw [if_neg (by simpa using removed), if_pos (List.mem_append_left seen removed), ih]
        apply firsts_congr_seen
        intro candidate _
        simp only [List.mem_append, List.mem_cons]
        constructor
        · rintro (inside | same | before)
          · exact .inl inside
          · exact .inl (same ▸ removed)
          · exact .inr before
        · exact Or.imp_right Or.inr
      · rw [if_pos (by simpa using removed), if_neg (by simp [removed, old]), ih]
        congr 1
        apply firsts_congr_seen
        intro candidate _
        simp only [List.mem_append, List.mem_cons]
        tauto

/-- A test that the key decides selects the same members before and after. No selected member has
the key of one that fails the test. -/
theorem firsts_filter (test : α → Bool)
    (decided : ∀ left ∈ members, ∀ right ∈ members, key left = key right → test left = test right) :
    firsts key seen (members.filter test) = (firsts key seen members).filter test := by
  induction members generalizing seen with
  | nil => rfl
  | cons member members ih =>
    have tail : ∀ left ∈ members, ∀ right ∈ members, key left = key right →
        test left = test right := fun left inside right within =>
      decided left (List.mem_cons_of_mem member inside) right (List.mem_cons_of_mem member within)
    rw [List.filter_cons, firsts]
    cases passes : test member with
    | true =>
      rw [if_pos rfl, firsts]
      by_cases old : key member ∈ seen
      · rw [if_pos old, if_pos old, ih tail]
      · rw [if_neg old, if_neg old, List.filter_cons, if_pos passes, ih tail]
    | false =>
      rw [if_neg (by simp)]
      by_cases old : key member ∈ seen
      · rw [if_pos old, ih tail]
      · rw [if_neg old, List.filter_cons, if_neg (by simp [passes]), ← ih tail]
        apply firsts_congr_seen
        intro candidate inside
        obtain ⟨within, selected⟩ := List.mem_filter.mp inside
        rw [List.mem_cons]
        constructor
        · exact Or.inr
        · rintro (same | before)
          · have := decided candidate (List.mem_cons_of_mem member within) member
              List.mem_cons_self same
            rw [selected, passes] at this
            cases this
          · exact before

/-- The first member that passes a test which the key decides is a first occurrence. -/
theorem find?_firsts (test : α → Bool)
    (decided : ∀ left right, key left = key right → test left = test right)
    (failed : ∀ member ∈ members, key member ∈ seen → test member = false) :
    (firsts key seen members).find? test = members.find? test := by
  induction members generalizing seen with
  | nil => rfl
  | cons member members ih =>
    have tail := fun later inside => failed later (List.mem_cons_of_mem member inside)
    rw [firsts]
    by_cases old : key member ∈ seen
    · rw [if_pos old, ih tail,
        List.find?_cons_of_neg (by rw [failed member List.mem_cons_self old]; decide)]
    · rw [if_neg old, List.find?_cons, List.find?_cons]
      cases passes : test member with
      | true => rfl
      | false =>
        apply ih
        intro later inside again
        rcases List.mem_cons.mp again with same | before
        · rw [decided later member same, passes]
        · exact tail later inside before

/-- Two lists with the same first occurrence of every key, in the same order. -/
def SameFirsts (key : α → β) (members others : List α) : Prop :=
  firsts key [] members = firsts key [] others

namespace SameFirsts

variable {others later laters : List α}

/-- A list has the first occurrences of its first occurrences. -/
theorem of_firsts (key : α → β) (members : List α) :
    SameFirsts key (firsts key [] members) members := firsts_firsts

/-- Interchangeable lists have the same first occurrences whatever is already seen. -/
theorem firsts_eq (same : SameFirsts key members others) (seen : List β) :
    firsts key seen members = firsts key seen others := by
  have outer := congrArg (List.filter fun member => key member ∉ seen) same
  rwa [filter_firsts, filter_firsts, List.append_nil] at outer

/-- Interchangeable lists have the same keys. -/
theorem mem_map_iff (same : SameFirsts key members others) (wanted : β) :
    wanted ∈ members.map key ↔ wanted ∈ others.map key := by
  have kept := congrArg (fun survivors => wanted ∈ survivors.map key) same
  simpa only [mem_map_firsts, List.not_mem_nil, not_false_eq_true, and_true, eq_iff_iff] using kept

/-- The first member that passes a test which the key decides is the same in interchangeable
lists. -/
theorem find?_eq (same : SameFirsts key members others) (test : α → Bool)
    (decided : ∀ left right, key left = key right → test left = test right) :
    members.find? test = others.find? test := by
  have thinned : ∀ list : List α, (firsts key [] list).find? test = list.find? test :=
    fun list => find?_firsts test decided (by simp)
  rw [← thinned members, same, thinned others]

/-- Interchangeable lists may be joined. -/
theorem append (same : SameFirsts key members others) (alike : SameFirsts key later laters) :
    SameFirsts key (members ++ later) (others ++ laters) := by
  unfold SameFirsts
  rw [firsts_append, firsts_append, same, alike.firsts_eq]
  congr 1
  apply firsts_congr_seen
  intro candidate _
  rw [List.append_nil, List.append_nil]
  exact same.mem_map_iff (key candidate)

/-- Interchangeable lists may be filtered by a test that the key decides. -/
theorem filter (same : SameFirsts key members others) (test : α → Bool)
    (decided : ∀ left ∈ members ++ others, ∀ right ∈ members ++ others, key left = key right →
      test left = test right) :
    SameFirsts key (members.filter test) (others.filter test) := by
  unfold SameFirsts
  rw [firsts_filter, firsts_filter, same]
  · exact fun left inside right within => decided left (List.mem_append_right members inside)
      right (List.mem_append_right members within)
  · exact fun left inside right within => decided left (List.mem_append_left others inside)
      right (List.mem_append_left others within)

end SameFirsts

/-- Lists built from a member bring only keys that the lists built from the first member with
its key have brought before. -/
theorem firsts_flatMap_firsts {result : γ → δ} {build : α → List γ} {known : List δ}
    (congruent : ∀ left right, key left = key right →
      ∀ wanted ∈ (build left).map result, wanted ∈ (build right).map result)
    (brought : ∀ member ∈ members, key member ∈ seen →
      ∀ wanted ∈ (build member).map result, wanted ∈ known) :
    firsts result known ((firsts key seen members).flatMap build) =
      firsts result known (members.flatMap build) := by
  induction members generalizing seen known with
  | nil => rfl
  | cons member members ih =>
    rw [List.flatMap_cons, firsts_append, firsts]
    by_cases old : key member ∈ seen
    · have absorbed := brought member List.mem_cons_self old
      rw [if_pos old, ih fun candidate inside =>
        brought candidate (List.mem_cons_of_mem member inside)]
      have nothing : firsts result known (build member) = [] := by
        rw [List.eq_nil_iff_forall_not_mem]
        intro item inside
        have kept := (mem_map_firsts (result item)).mp (List.mem_map_of_mem inside)
        exact kept.2 (absorbed _ kept.1)
      rw [nothing, List.nil_append]
      apply firsts_congr_seen
      intro item _
      rw [List.mem_append]
      exact ⟨Or.inr, fun found => found.elim (absorbed _) id⟩
    · rw [if_neg old, List.flatMap_cons, firsts_append]
      congr 1
      apply ih
      intro candidate inside again wanted built
      rw [List.mem_append]
      rcases List.mem_cons.mp again with same | before
      · exact .inl (congruent candidate member same wanted built)
      · exact .inr (brought candidate (List.mem_cons_of_mem member inside) before wanted built)

namespace SameFirsts

variable {others : List α}

/-- Building the same way from every member of a list. -/
theorem flatMap_congr {result : γ → δ} {build rebuild : α → List γ}
    (each : ∀ member ∈ members, SameFirsts result (build member) (rebuild member)) :
    SameFirsts result (members.flatMap build) (members.flatMap rebuild) := by
  induction members with
  | nil => exact rfl
  | cons member members ih =>
    rw [List.flatMap_cons, List.flatMap_cons]
    exact (each member List.mem_cons_self).append
      (ih fun other inside => each other (List.mem_cons_of_mem member inside))

/-- What is built from interchangeable lists is interchangeable, when members with one key
build lists with the same keys. -/
theorem flatMap {result : γ → δ} {build : α → List γ} (same : SameFirsts key members others)
    (congruent : ∀ left right, key left = key right →
      ∀ wanted ∈ (build left).map result, wanted ∈ (build right).map result) :
    SameFirsts result (members.flatMap build) (others.flatMap build) := by
  have thinned : ∀ list : List α, firsts result [] ((firsts key [] list).flatMap build) =
      firsts result [] (list.flatMap build) := fun list =>
    firsts_flatMap_firsts congruent (by simp)
  calc firsts result [] (members.flatMap build)
      = firsts result [] ((firsts key [] members).flatMap build) := (thinned members).symm
    _ = firsts result [] ((firsts key [] others).flatMap build) := by rw [same]
    _ = firsts result [] (others.flatMap build) := thinned others

/-- A function whose result's key depends on the argument's key only. -/
theorem map {result : γ → δ} {build : α → γ} (same : SameFirsts key members others)
    (congruent : ∀ left right, key left = key right → result (build left) = result (build right)) :
    SameFirsts result (members.map build) (others.map build) := by
  rw [List.map_eq_flatMap, List.map_eq_flatMap]
  apply same.flatMap
  intro left right alike wanted built
  simpa [congruent left right alike] using built

/-- Choosing one operand from each of several interchangeable lists. -/
theorem choices {options offers : List (List α)}
    (each : List.Forall₂ (SameFirsts key) options offers) :
    SameFirsts (List.map key) (ProgramSynthesis.choices options)
      (ProgramSynthesis.choices offers) := by
  induction each with
  | nil => exact rfl
  | @cons option offer options offers same _ ih =>
    have inner : SameFirsts (List.map key)
        (option.flatMap fun first => (ProgramSynthesis.choices options).map (first :: ·))
        (option.flatMap fun first => (ProgramSynthesis.choices offers).map (first :: ·)) := by
      apply flatMap_congr
      intro first _
      apply ih.map
      intro left right alike
      rw [List.map_cons, List.map_cons, alike]
    refine inner.trans (same.flatMap ?_)
    intro left right alike wanted built
    rw [List.map_map, List.mem_map] at built ⊢
    obtain ⟨tail, inside, rfl⟩ := built
    exact ⟨tail, inside, by simp [alike]⟩

end SameFirsts

end ProgramSynthesis
