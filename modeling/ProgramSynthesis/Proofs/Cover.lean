import ProgramSynthesis.Proofs.Levels
import ProgramSynthesis.Proofs.Marks
import ProgramSynthesis.Search.Cover

/-!
# Scores and picks

On examples that bind the declared names every integer program of the cover pool is scored,
and its score is the mask of the examples that it solves. Among masks over the same examples
a best entry can always be looked for, and one that is found is one of the scored candidates.
-/

namespace ProgramSynthesis

variable {config : SearchConfig} {grammar : Grammar} {examples : List Example}
  {scored : List Scored} {start counters : Counters} {uncovered : Mask} {entry : Scored}

/-- What a look through some entries ends with: the best entry so far, when none of them solves
more, or else the earliest of those that solve the most. -/
theorem bestFrom_cases {best found : Option (Scored × Nat)}
    (looked : bestFrom uncovered best scored = .ok found) :
    (found = best ∧ ∀ other ∈ scored, ∃ gain ≤ (best.map Prod.snd).getD 0,
      other.mask.countWithin uncovered = .ok gain) ∨
    ∃ earlier entry later most, scored = earlier ++ entry :: later ∧ found = some (entry, most) ∧
      entry.mask.countWithin uncovered = .ok most ∧ (best.map Prod.snd).getD 0 < most ∧
      (∀ other ∈ earlier, ∃ gain < most, other.mask.countWithin uncovered = .ok gain) ∧
      ∀ other ∈ later, ∃ gain ≤ most, other.mask.countWithin uncovered = .ok gain := by
  induction scored generalizing best with
  | nil => exact .inl ⟨(Except.ok.inj looked).symm, by simp⟩
  | cons first scored ih =>
    obtain ⟨firstGain, counted, looked⟩ := bind_eq_ok_iff.mp looked
    split at looked
    · rename_i larger
      rcases ih looked with ⟨rfl, rest⟩ |
        ⟨earlier, entry, later, most, rfl, rfl, gained, more, before, after⟩
      · exact .inr ⟨[], first, scored, firstGain, rfl, rfl, counted, larger, by simp, rest⟩
      · have most_gt : firstGain < most := more
        refine .inr ⟨first :: earlier, entry, later, most, rfl, rfl, gained, by omega, ?_, after⟩
        exact List.forall_mem_cons.mpr ⟨⟨firstGain, most_gt, counted⟩, before⟩
    · rename_i smaller
      rcases ih looked with ⟨rfl, rest⟩ |
        ⟨earlier, entry, later, most, rfl, rfl, gained, more, before, after⟩
      · exact .inl ⟨rfl, List.forall_mem_cons.mpr ⟨⟨firstGain, by omega, counted⟩, rest⟩⟩
      · refine .inr ⟨first :: earlier, entry, later, most, rfl, rfl, gained, more, ?_, after⟩
        exact List.forall_mem_cons.mpr ⟨⟨firstGain, by omega, counted⟩, before⟩

/-- The best entry is the earliest of those that solve the most uncovered examples. -/
theorem bestFor_eq_some (found : bestFor scored uncovered = .ok (some entry)) :
    ∃ earlier later most, scored = earlier ++ entry :: later ∧
      entry.mask.countWithin uncovered = .ok most ∧ 0 < most ∧
      (∀ other ∈ earlier, ∃ gain < most, other.mask.countWithin uncovered = .ok gain) ∧
      ∀ other ∈ later, ∃ gain ≤ most, other.mask.countWithin uncovered = .ok gain := by
  obtain ⟨best, looked, found⟩ := bind_eq_ok_iff.mp found
  rcases bestFrom_cases looked with ⟨rfl, _⟩ |
    ⟨earlier, chosen, later, most, same, rfl, gained, positive, before, after⟩
  · cases found
  · cases found
    exact ⟨earlier, later, most, same, gained, positive, before, after⟩

/-- No entry solves more uncovered examples than the best one. -/
theorem gain_le_of_bestFor (found : bestFor scored uncovered = .ok (some entry)) {most : Nat}
    (gained : entry.mask.countWithin uncovered = .ok most) {other : Scored}
    (inside : other ∈ scored) {gain : Nat}
    (counted : other.mask.countWithin uncovered = .ok gain) : gain ≤ most := by
  obtain ⟨earlier, later, best, rfl, same, _, before, after⟩ := bestFor_eq_some found
  obtain rfl : most = best := Except.ok.inj (gained.symm.trans same)
  rcases List.mem_append.mp inside with old | new
  · obtain ⟨amount, less, again⟩ := before other old
    obtain rfl : gain = amount := Except.ok.inj (counted.symm.trans again)
    exact Nat.le_of_lt less
  · rcases List.mem_cons.mp new with rfl | new
    · exact Nat.le_of_eq (Except.ok.inj (counted.symm.trans gained))
    · obtain ⟨amount, less, again⟩ := after other new
      obtain rfl : gain = amount := Except.ok.inj (counted.symm.trans again)
      exact less

/-- Without a best entry no entry solves an uncovered example. -/
theorem bestFor_eq_none (found : bestFor scored uncovered = .ok none) :
    ∀ entry ∈ scored, entry.mask.countWithin uncovered = .ok 0 := by
  obtain ⟨best, looked, found⟩ := bind_eq_ok_iff.mp found
  rcases bestFrom_cases looked with ⟨rfl, rest⟩ | ⟨_, _, _, _, _, rfl, _⟩
  · intro entry inside
    obtain ⟨gain, none, counted⟩ := rest entry inside
    rw [counted, Nat.le_zero.mp none]
  · cases found

/-- The best entry is one of the scored candidates. -/
theorem mem_of_bestFor (found : bestFor scored uncovered = .ok (some entry)) : entry ∈ scored := by
  obtain ⟨earlier, later, _, rfl, _⟩ := bestFor_eq_some found
  exact List.mem_append_right earlier List.mem_cons_self

/-- Entries that gain no more than the best so far need not be looked at again. -/
theorem bestFrom_firsts {best : Option (Scored × Nat)} {seen : List Scored}
    (known : ∀ other ∈ seen, ∃ gain ≤ (best.map Prod.snd).getD 0,
      other.mask.countWithin uncovered = .ok gain) :
    bestFrom uncovered best (firsts id seen scored) = bestFrom uncovered best scored := by
  induction scored generalizing best seen with
  | nil => rfl
  | cons entry scored ih =>
    rw [firsts]
    by_cases old : id entry ∈ seen
    · obtain ⟨gain, small, counted⟩ := known entry old
      rw [if_pos old, ih known, bestFrom, counted, ok_bind, if_neg (Nat.not_lt.mpr small)]
    · rw [if_neg old, bestFrom, bestFrom]
      apply bind_congr_of_ok
      intro gain counted
      by_cases larger : (best.map Prod.snd).getD 0 < gain
      · rw [if_pos larger, if_pos larger]
        apply ih
        refine List.forall_mem_cons.mpr ⟨⟨gain, Nat.le_refl _, counted⟩, fun other inside => ?_⟩
        obtain ⟨amount, less, again⟩ := known other inside
        exact ⟨amount, Nat.le_of_lt (Nat.lt_of_le_of_lt less larger), again⟩
      · rw [if_neg larger, if_neg larger]
        apply ih
        exact List.forall_mem_cons.mpr ⟨⟨gain, Nat.not_lt.mp larger, counted⟩, known⟩

/-- Entries with the same first occurrences have the same best entry. -/
theorem bestFor_congr {others : List Scored} (same : SameFirsts id scored others)
    (uncovered : Mask) : bestFor scored uncovered = bestFor others uncovered := by
  have thinned : ∀ list : List Scored,
      bestFrom uncovered none (firsts id [] list) = bestFrom uncovered none list :=
    fun list => bestFrom_firsts (by simp)
  rw [bestFor, bestFor, ← thinned scored, same, thinned others]

/-- Scored candidates are the integer programs of the cover pool in pool order, each with its
mask. -/
theorem exists_pool_of_score (scoring : score config grammar examples start =
    .ok ⟨some scored, counters⟩) :
    ∃ pool leveled programs,
      growLevels (config.space grammar) examples config.poolLimit config.coverRounds
        grammar.terminals start = .ok ⟨some pool, leveled⟩ ∧
      grammar.ofType .int pool = .ok programs ∧
      leveled.recordChecks programs.length = .ok counters ∧
      List.Forall₂ (fun candidate entry => entry.candidate = candidate ∧
        candidate.mask examples = .ok entry.mask) programs scored := by
  obtain ⟨⟨pool, leveled⟩, grown, scoring⟩ := bind_eq_ok_iff.mp scoring
  cases pool with
  | none => cases scoring
  | some pool =>
    obtain ⟨programs, selected, scoring⟩ := bind_eq_ok_iff.mp scoring
    obtain ⟨counted, checks, scoring⟩ := bind_eq_ok_iff.mp scoring
    obtain ⟨entries, all, scoring⟩ := bind_eq_ok_iff.mp scoring
    cases scoring
    refine ⟨pool, leveled, programs, grown, selected, checks, (mapM_eq_ok_iff.mp all).imp ?_⟩
    intro candidate entry marked
    obtain ⟨mask, masked, marked⟩ := bind_eq_ok_iff.mp marked
    cases marked
    exact ⟨rfl, masked⟩

/-- A scored candidate comes with the mask of the examples that it solves. -/
theorem mask_of_score (scoring : score config grammar examples start =
    .ok ⟨some scored, counters⟩) (inside : entry ∈ scored) :
    entry.candidate.mask examples = .ok entry.mask := by
  obtain ⟨pool, leveled, programs, _, _, _, each⟩ := exists_pool_of_score scoring
  obtain ⟨position, bound, rfl⟩ := List.getElem_of_mem inside
  obtain ⟨same, masked⟩ := each.get (each.length_eq ▸ bound) bound
  rw [← same] at masked
  exact masked

/-- A search for a cover that does not give up scores the integer programs of the pool it
climbs to, and looks for no condition. -/
theorem exists_climb_of_score (bound : grammar.BoundBy examples)
    (scoring : score config grammar examples .zero = .ok ⟨some scored, counters⟩) :
    ∃ pool, (config.space grammar).climb examples config.poolLimit config.coverRounds
        grammar.terminals = some pool ∧ grammar.TypedPool pool ∧
      scored.map Scored.candidate = pool.filter (fun candidate => candidate.ty = .int) ∧
      counters.separators = 0 := by
  obtain ⟨pool, leveled, programs, grown, selected, checks, each⟩ := exists_pool_of_score scoring
  have typed := Grammar.typedPool_terminals grammar
  have spaceBound : (config.space grammar).grammar.BoundBy examples := bound
  obtain ⟨climbed, used, _⟩ := (SearchSpace.growLevels_delivers spaceBound typed
    (Counters.atMost_zero 0 0 0) (Nat.le_max_left _ _) (Nat.le_max_right _ _)).of_ok grown
  have poolTyped : grammar.TypedPool pool := SearchSpace.typedPool_of_climb typed climbed.symm
  rw [Grammar.ofType_eq poolTyped.declaresHeads] at selected
  obtain ⟨_, _, recorded⟩ := bind_eq_ok_iff.mp checks
  refine ⟨pool, climbed.symm, poolTyped, ?_, ?_⟩
  · rw [Except.ok.inj selected, ← List.forall₂_eq_eq_eq, List.forall₂_map_left_iff]
    exact each.flip.imp fun _ _ => And.left
  · rw [← Except.ok.inj recorded]
    exact Nat.le_zero.mp used.separators_le

/-- A search for a cover gives up only when a round of its climb does not fit. -/
theorem climb_eq_none_of_score (bound : grammar.BoundBy examples)
    (scoring : score config grammar examples .zero = .ok ⟨none, counters⟩) :
    (config.space grammar).climb examples config.poolLimit config.coverRounds
      grammar.terminals = none := by
  obtain ⟨⟨pool, leveled⟩, grown, scoring⟩ := bind_eq_ok_iff.mp scoring
  have spaceBound : (config.space grammar).grammar.BoundBy examples := bound
  obtain ⟨climbed, _⟩ := (SearchSpace.growLevels_delivers spaceBound
    (Grammar.typedPool_terminals grammar) (Counters.atMost_zero 0 0 0) (Nat.le_max_left _ _)
    (Nat.le_max_right _ _)).of_ok grown
  cases pool with
  | none => exact climbed.symm
  | some pool =>
    obtain ⟨_, _, scoring⟩ := bind_eq_ok_iff.mp scoring
    obtain ⟨_, _, scoring⟩ := bind_eq_ok_iff.mp scoring
    obtain ⟨_, _, scoring⟩ := bind_eq_ok_iff.mp scoring
    cases scoring

/-- A scored candidate is a well-typed integer program. -/
theorem wellTyped_of_score (bound : grammar.BoundBy examples)
    (scoring : score config grammar examples .zero = .ok ⟨some scored, counters⟩)
    (inside : entry ∈ scored) :
    grammar.WellTyped entry.candidate ∧ entry.candidate.ty = .int := by
  obtain ⟨pool, _, typed, selected, _⟩ := exists_climb_of_score bound scoring
  have chosen : entry.candidate ∈ pool.filter (fun candidate => candidate.ty = .int) :=
    selected ▸ List.mem_map_of_mem inside
  obtain ⟨member, integer⟩ := List.mem_filter.mp chosen
  exact ⟨typed _ member, of_decide_eq_true integer⟩

/-- Masks over the same examples are compared without a fault. -/
theorem exists_bestFrom {best : Option (Scored × Nat)}
    (counted : ∀ entry ∈ scored, entry.mask.length = uncovered.length) :
    ∃ found, bestFrom uncovered best scored = .ok found := by
  induction scored generalizing best with
  | nil => exact ⟨best, rfl⟩
  | cons first scored ih =>
    have tail := fun entry inside => counted entry (List.mem_cons_of_mem first inside)
    have gain := (Mask.countWithin_eq_ok_iff first.mask uncovered _).mpr
      ⟨counted first List.mem_cons_self, rfl⟩
    rw [bestFrom, gain, ok_bind]
    split
    · exact ih tail
    · exact ih tail

/-- There is a best entry, or none that solves an uncovered example. -/
theorem exists_bestFor (counted : ∀ entry ∈ scored, entry.mask.length = uncovered.length) :
    ∃ found, bestFor scored uncovered = .ok found := by
  obtain ⟨best, searched⟩ : ∃ best, bestFrom uncovered none scored = .ok best :=
    exists_bestFrom counted
  exact ⟨best.map Prod.fst, by rw [bestFor, searched, ok_bind, pure_eq_ok]⟩

/-- The cover pool is scored with at most one unit of work for each of its members and rounds,
and only well-typed candidates are scored. -/
theorem score_delivers {budget room : Nat} (bound : grammar.BoundBy examples)
    (poolRoom : config.poolLimit ≤ room) (terminalRoom : grammar.terminals.length ≤ room)
    (roundRoom : config.coverRounds ≤ budget)
    (workRoom : (config.coverRounds + 1) * room ≤ budget) :
    Delivers budget (score config grammar examples .zero) fun report =>
      report.counters.AtMost config.coverRounds ((config.coverRounds + 1) * room) 0 ∧
      ∀ scored, report.result = some scored →
        ∀ entry ∈ scored, grammar.WellTyped entry.candidate := by
  have work : config.coverRounds * config.poolLimit ≤ config.coverRounds * room :=
    Nat.mul_le_mul_left _ poolRoom
  rw [Nat.add_one_mul] at workRoom ⊢
  have typed := Grammar.typedPool_terminals grammar
  have spaceBound : (config.space grammar).grammar.BoundBy examples := bound
  refine (SearchSpace.growLevels_delivers spaceBound typed (Counters.atMost_zero 0 0 0) (by omega)
    (by omega)).bind fun report grown => ?_
  obtain ⟨pool, counters⟩ := report
  obtain ⟨climbed, used, unchecked, short⟩ := grown
  cases pool with
  | none => exact .ok ⟨used.mono (by omega) (by omega) (Nat.le_refl 0), nofun⟩
  | some pool =>
    have poolTyped : grammar.TypedPool pool := SearchSpace.typedPool_of_climb typed climbed.symm
    have few : pool.length ≤ max config.poolLimit grammar.terminals.length := short pool rfl
    have fewer := List.length_filter_le (fun candidate : Candidate => candidate.ty = .int) pool
    have spent := used.checked_le
    have checks : counters.checked = 0 := unchecked
    simp only [Grammar.ofType_eq poolTyped.declaresHeads, ok_bind]
    refine (Counters.recordChecks_delivers (.inl (by omega))).bind fun later counted => ?_
    have each : ∀ candidate ∈ pool.filter fun candidate => candidate.ty = .int,
        ∃ entry, (do return Scored.mk candidate (← candidate.mask examples)) =
          Except.ok (ε := Fault) entry := by
      intro candidate inside
      have member : candidate ∈ pool := List.mem_of_mem_filter inside
      obtain ⟨mask, masked⟩ := (poolTyped candidate member).exists_mask bound
      exact ⟨⟨candidate, mask⟩, by rw [masked]; rfl⟩
    obtain ⟨entries, all⟩ := exists_mapM_eq_ok each
    rw [all, ok_bind]
    refine .ok ⟨?_, fun scored same entry inside => ?_⟩
    · rw [counted]
      constructor
      · exact Nat.le_trans used.levels_le (by omega)
      · exact Nat.le_trans used.grown_le (by omega)
      · exact Nat.le_trans used.kept_le (by omega)
      · rw [Counters.afterChecks_checked]
        omega
      · exact used.separators_le
    · cases same
      obtain ⟨candidate, within, marked⟩ := exists_of_mem_mapM all inside
      obtain ⟨mask, _, marked⟩ := bind_eq_ok_iff.mp marked
      cases marked
      exact poolTyped candidate (List.mem_of_mem_filter within)

end ProgramSynthesis
