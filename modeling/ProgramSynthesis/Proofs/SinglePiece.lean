import ProgramSynthesis.Proofs.Success

/-!
# When one piece is enough

An enumerative search over as many levels as there are cover rounds stops at the first correct
candidate, while a search by unification climbs to the last round and picks among the integer
programs there. They still agree on whether one program solves all examples, and on which: levels
keep the first correct candidate, no other member of the pool behaves like it, and among integer
outputs it is an integer program, so its gain is the largest and it is picked first.
-/

namespace ProgramSynthesis

section

variable {config : SearchConfig} {grammar : Grammar} {examples : List Example}
  {scored : List Scored} {start counters : Counters} {pool : List Candidate}
  {found : Candidate} {program : Expr}

/-- A pool that is climbed to holds one correct candidate at most, which is the first. -/
theorem SearchSpace.find?_eq_some_iff_of_climb {space : SearchSpace} {poolLimit rounds : Nat}
    {lower : List Candidate}
    (climbed : space.climb examples poolLimit (rounds + 1) lower = some pool) :
    pool.find? (·.solves examples) = some found ↔
      found ∈ pool ∧ found.isCorrect examples = .ok true := by
  have correct : ∀ {candidate : Candidate},
      pool.find? (·.solves examples) = some candidate →
      candidate ∈ pool ∧ candidate.isCorrect examples = .ok true := fun first =>
    ⟨List.mem_of_find?_eq_some first,
      of_decide_eq_true
        (List.find?_some (p := fun other : Candidate => other.solves examples) first)⟩
  refine ⟨correct, fun ⟨member, right⟩ => ?_⟩
  obtain ⟨other, first⟩ := Option.ne_none_iff_exists'.mp (solved_iff.mp ⟨found, member, right⟩)
  obtain ⟨inside, alike⟩ := correct first
  have same : other = found := List.inj_on_of_nodup_map (nodup_of_climb climbed) inside member
    (Candidate.behaviour_eq_of_isCorrect alike right)
  rw [first, same]

/-- On integer outputs a correct member of the cover pool is scored, with the full mask. Some
example asks for an integer, so the member is an integer program. -/
theorem mem_scored_of_isCorrect (bound : grammar.BoundBy examples) (nonempty : examples ≠ [])
    (integers : ∀ case ∈ examples, case.output.ty = .int)
    (scoring : score config grammar examples .zero = .ok ⟨some scored, start⟩)
    (climbed : (config.space grammar).climb examples config.poolLimit config.coverRounds
      grammar.terminals = some pool)
    (member : found ∈ pool) (correct : found.isCorrect examples = .ok true) :
    (Scored.mk found (.full examples.length)) ∈ scored := by
  obtain ⟨top, same, typed, selected, _⟩ := exists_climb_of_score bound scoring
  obtain rfl : pool = top := Option.some.inj (climbed.symm.trans same)
  obtain ⟨program, compiled, programTyped⟩ := (typed found member).compile
  rw [Candidate.isCorrect, compiled, ok_bind] at correct
  obtain ⟨case, inside⟩ := List.exists_mem_of_ne_nil examples nonempty
  have kind : Ty.int = found.ty := by
    rw [← integers case inside]
    exact programTyped.output_ty (bound case inside) correct inside
  have chosen : found ∈ scored.map Scored.candidate := by
    rw [selected, List.mem_filter]
    exact ⟨member, decide_eq_true kind.symm⟩
  obtain ⟨⟨candidate, mask⟩, entered, rfl⟩ := List.mem_map.mp chosen
  have masked := mask_of_score scoring entered
  rw [Candidate.mask, compiled, ok_bind, Expr.mask_full_of_isCorrect correct] at masked
  rwa [Except.ok.inj masked]

/-- Where an entry is correct everywhere, one with a full mask is picked first. -/
theorem exists_bestFor_full (nonempty : examples ≠ [])
    (masked : ∀ entry ∈ scored, entry.candidate.mask examples = .ok entry.mask)
    (inside : (Scored.mk found (.full examples.length)) ∈ scored) :
    ∃ entry ∈ scored, bestFor scored (.full examples.length) = .ok (some entry) ∧
      entry.mask = .full examples.length := by
  have counted : ∀ entry ∈ scored, entry.mask.length = (Mask.full examples.length).length := by
    intro entry within
    rw [Candidate.length_of_mask (masked entry within), Mask.length_full]
  have gain := Mask.countWithin_full_full examples.length
  obtain ⟨best, looked⟩ := exists_bestFor counted
  cases best with
  | none =>
    have nothing := bestFor_eq_none looked _ inside
    rw [gain] at nothing
    exact absurd (List.length_eq_zero_iff.mp (Except.ok.inj nothing)) nonempty
  | some entry =>
    obtain ⟨most, gained, _⟩ := gain_of_bestFor looked
    have whole : examples.length ≤ most := gain_le_of_bestFor looked gained inside gain
    exact ⟨entry, mem_of_bestFor looked, looked, Mask.eq_full_of_countWithin_full gained whole⟩

namespace Stage

/-- A run whose first pick is correct everywhere returns it. -/
theorem run_of_full_pick (nonempty : examples ≠ []) {entry : Scored}
    (best : bestFor scored (.full examples.length) = .ok (some entry))
    (full : entry.mask = .full examples.length)
    (masked : entry.candidate.mask examples = .ok entry.mask)
    (compiled : entry.candidate.compile = .ok program) :
    (initial examples).run config grammar examples scored start (exact_initial examples) =
      .ok ⟨some program, start⟩ := by
  rw [Candidate.mask, compiled, ok_bind, full] at masked
  have positive : (Mask.full examples.length).count ≠ 0 := by
    rw [Mask.count_full]
    exact fun none => nonempty (List.length_eq_zero_iff.mp none)
  have union := Mask.unionAll_singleton (Mask.length_full examples.length)
  have none : (Mask.full examples.length).complement.count = 0 := by
    rw [Mask.complement_full, Mask.count_empty]
  have picked : Reached config grammar examples scored start
      (searching [⟨program, .full examples.length⟩] (Mask.full examples.length).complement)
      start := by
    refine .step .initial ?_
    rw [initial, step, if_neg positive, best, ok_bind]
    simp only [compiled, full, List.nil_append, List.map_singleton, union, ok_bind, pure_eq_ok]
  have covers : Reached config grammar examples scored start
      (covered [⟨program, .full examples.length⟩]) start := picked.step (if_pos none)
  have single : Reached config grammar examples scored start
      (unifying ⟨program, .full examples.length⟩ []) start := covers.step rfl
  obtain ⟨_, same⟩ := single.run_eq
  rw [same, run_unifying_nil, Mask.isFull_full, if_pos rfl,
    Expr.isCorrect_of_mask_full masked, ok_bind]
  rfl

end Stage

/-- A program that is found without a search for a condition is a scored candidate that is
correct everywhere, compiled. One search for a condition would have been counted for each further
piece. -/
theorem exists_scored_of_single (bound : grammar.BoundBy examples) (nonempty : examples ≠ [])
    (scoring : score config grammar examples .zero = .ok ⟨some scored, start⟩)
    (searched : unificationSearch config grammar examples = .ok ⟨some program, counters⟩)
    (single : counters.separators = 0) :
    ∃ entry ∈ scored, entry.candidate.compile = .ok program ∧
      entry.candidate.isCorrect examples = .ok true := by
  obtain ⟨entries, begun, pieces, uncovered, again, final, ran⟩ :=
    exists_finalPicks_of_unificationSearch bound searched
  obtain ⟨rfl, rfl⟩ : scored = entries ∧ start = begun := by
    simpa using scoring.symm.trans again
  obtain ⟨_, correct, first, others, rfl, searches, conditions, counted, rfl, _⟩ :=
    final.nested bound nonempty (fun _ inside => mask_of_score scoring inside) ran
  obtain rfl : others = [] := List.length_eq_zero_iff.mp (by omega)
  obtain ⟨entry, inside, compiled, _⟩ :=
    Stage.drawn_of_reached final.reached first List.mem_cons_self
  rw [List.map_nil, List.zip_nil_right] at correct ⊢
  refine ⟨entry, inside, compiled, ?_⟩
  rw [Candidate.isCorrect, compiled, ok_bind]
  exact correct

/-- Where an entry is correct everywhere, a scored candidate that is correct everywhere is returned
without a search for a condition. -/
theorem exists_single_of_scored (bound : grammar.BoundBy examples) (nonempty : examples ≠ [])
    (scoring : score config grammar examples .zero = .ok ⟨some scored, start⟩)
    (inside : (Scored.mk found (.full examples.length)) ∈ scored) :
    ∃ entry ∈ scored, entry.candidate.isCorrect examples = .ok true ∧
      ∃ program counters, entry.candidate.compile = .ok program ∧
        unificationSearch config grammar examples = .ok ⟨some program, counters⟩ ∧
        counters.separators = 0 := by
  have masked : ∀ entry ∈ scored, entry.candidate.mask examples = .ok entry.mask :=
    fun entry inside => mask_of_score scoring inside
  obtain ⟨_, _, _, _, unseparated⟩ := exists_climb_of_score bound scoring
  obtain ⟨entry, within, best, full⟩ := exists_bestFor_full nonempty masked inside
  have exact := masked entry within
  obtain ⟨program, compiled, _⟩ := bind_eq_ok_iff.mp exact
  refine ⟨entry, within, Candidate.isCorrect_of_mask_full (full ▸ exact), program, start, compiled,
    ?_, unseparated⟩
  rw [unificationSearch, scoring, ok_bind]
  exact Stage.run_of_full_pick nonempty best full exact compiled

/-- A search by unification that needs no condition returns the first correct member of the cover
pool, and it returns that whenever there is one. What it returns is correct, and the pool has only
one correct member. -/
theorem unificationSearch_single_iff_find? (positive : 0 < config.coverRounds)
    (bound : grammar.BoundBy examples) (nonempty : examples ≠ [])
    (integers : ∀ case ∈ examples, case.output.ty = .int)
    (scoring : score config grammar examples .zero = .ok ⟨some scored, start⟩)
    (climbed : (config.space grammar).climb examples config.poolLimit config.coverRounds
      grammar.terminals = some pool) :
    (∃ counters, unificationSearch config grammar examples = .ok ⟨some program, counters⟩ ∧
      counters.separators = 0) ↔
    ∃ found, pool.find? (·.solves examples) = some found ∧ found.compile = .ok program := by
  obtain ⟨top, same, _, selected, _⟩ := exists_climb_of_score bound scoring
  obtain rfl : pool = top := Option.some.inj (climbed.symm.trans same)
  have member : ∀ entry ∈ scored, entry.candidate ∈ pool := fun entry inside =>
    List.mem_of_mem_filter (selected ▸ List.mem_map_of_mem inside)
  obtain ⟨rounds, levels⟩ := Nat.exists_eq_add_one_of_ne_zero (Nat.ne_of_gt positive)
  rw [levels] at climbed
  have unique : ∀ {candidate : Candidate}, pool.find? (·.solves examples) = some candidate ↔
      candidate ∈ pool ∧ candidate.isCorrect examples = .ok true :=
    SearchSpace.find?_eq_some_iff_of_climb climbed
  constructor
  · rintro ⟨counters, searched, single⟩
    obtain ⟨entry, inside, compiled, correct⟩ :=
      exists_scored_of_single bound nonempty scoring searched single
    exact ⟨entry.candidate, unique.mpr ⟨member entry inside, correct⟩, compiled⟩
  · rintro ⟨found, first, compiled⟩
    obtain ⟨inside, correct⟩ := unique.mp first
    obtain ⟨entry, within, alike, other, counters, otherCompiled, searched, single⟩ :=
      exists_single_of_scored bound nonempty scoring
        (mem_scored_of_isCorrect bound nonempty integers scoring same inside correct)
    have picked := unique.mpr ⟨member entry within, alike⟩
    obtain rfl : found = entry.candidate := Option.some.inj (first.symm.trans picked)
    obtain rfl : program = other := Except.ok.inj (compiled.symm.trans otherCompiled)
    exact ⟨counters, searched, single⟩

/-- An enumerative search over as many levels as there are cover rounds returns the first correct
member of the cover pool, if there is one. -/
theorem exists_enumerativeSearch_of_score (positive : 0 < config.coverRounds)
    (bound : grammar.BoundBy examples)
    (scoring : score config grammar examples .zero = .ok ⟨some scored, start⟩)
    (climbed : (config.space grammar).climb examples config.poolLimit config.coverRounds
      grammar.terminals = some pool) :
    ∃ counters, enumerativeSearch (config.space grammar) examples config.coverRounds
      config.poolLimit = .ok ⟨pool.find? (·.solves examples), counters⟩ := by
  have spaceBound : (config.space grammar).grammar.BoundBy examples := bound
  have typed : (config.space grammar).grammar.TypedPool grammar.terminals :=
    Grammar.typedPool_terminals grammar
  obtain ⟨_, _, _, grown, _⟩ := exists_pool_of_score scoring
  obtain ⟨⟨answer, counters⟩, searched⟩ : ∃ report, enumerativeSearch (config.space grammar)
      examples config.coverRounds config.poolLimit = .ok report :=
    SearchSpace.exists_searchLevels_of_growLevels spaceBound typed grown rfl rfl rfl
      (Nat.le_refl 0)
  obtain ⟨explored, _⟩ := (SearchSpace.enumerativeSearch_delivers spaceBound
    (Nat.le_max_left _ _) (Nat.le_max_right _ _)).of_ok searched
  obtain ⟨rounds, levels⟩ := Nat.exists_eq_add_one_of_ne_zero (Nat.ne_of_gt positive)
  rw [levels] at climbed explored
  have first : answer = pool.find? (·.solves examples) :=
    explored.trans (SearchSpace.explore_eq_find?_of_climb climbed)
  exact ⟨counters, first ▸ searched⟩

end

/-- One program suffices for both strategies or for neither. On at least one example, all of which
bind the declared names and ask for integers, let the search for a cover not give up at the pool
limit. Then a search by unification returns a program without a search for a condition exactly
when an enumerative search over as many levels as there are cover rounds returns a candidate, and
the program is that candidate, compiled. Only if the rounds times the limit reach the largest
machine word may a counter of the cover overflow instead. -/
theorem unificationSearch_single_iff (config : SearchConfig) (grammar : Grammar)
    (examples : List Example) (positive : 0 < config.coverRounds) (nonempty : examples ≠ [])
    (bound : grammar.BoundBy examples) (integers : ∀ case ∈ examples, case.output.ty = .int)
    (persists : ∀ counters, score config grammar examples .zero ≠ .ok ⟨none, counters⟩) :
    Delivers ((config.coverRounds + 1) * max config.poolLimit grammar.terminals.length)
      (score config grammar examples .zero) fun _ =>
        ((∃ program counters,
            unificationSearch config grammar examples = .ok ⟨some program, counters⟩ ∧
              counters.separators = 0) ↔
          ∃ found counters, enumerativeSearch (config.space grammar) examples config.coverRounds
            config.poolLimit = .ok ⟨some found, counters⟩) ∧
        ∀ program counters found counted,
          unificationSearch config grammar examples = .ok ⟨some program, counters⟩ →
          counters.separators = 0 →
          enumerativeSearch (config.space grammar) examples config.coverRounds config.poolLimit =
            .ok ⟨some found, counted⟩ →
          found.compile = .ok program := by
  have roomy : 0 < max config.poolLimit grammar.terminals.length :=
    Nat.lt_of_lt_of_le grammar.length_terminals_pos (Nat.le_max_right _ _)
  have rounds : config.coverRounds + 1 ≤
    (config.coverRounds + 1) * max config.poolLimit grammar.terminals.length :=
      Nat.le_mul_of_pos_right _ roomy
  refine (score_delivers bound (Nat.le_max_left _ _) (Nat.le_max_right _ _) (by omega)
    (Nat.le_refl _)).of_forall_ok fun report scoring => ?_
  obtain ⟨result, start⟩ := report
  cases result with
  | none => exact absurd scoring (persists start)
  | some scored =>
    obtain ⟨pool, climbed, typed, _, _⟩ := exists_climb_of_score bound scoring
    have single (program : Expr) :
        (∃ counters, unificationSearch config grammar examples = .ok ⟨some program, counters⟩ ∧
          counters.separators = 0) ↔
        ∃ found, pool.find? (·.solves examples) = some found ∧ found.compile = .ok program :=
      unificationSearch_single_iff_find? positive bound nonempty integers scoring climbed
    obtain ⟨counted, searched⟩ := exists_enumerativeSearch_of_score positive bound scoring climbed
    constructor
    · constructor
      · rintro ⟨program, counters, unified, separators⟩
        obtain ⟨found, first, _⟩ := (single program).mp ⟨counters, unified, separators⟩
        exact ⟨found, counted, first ▸ searched⟩
      · rintro ⟨found, counters, again⟩
        have first : pool.find? (·.solves examples) = some found :=
          congrArg Report.result (Except.ok.inj (searched.symm.trans again))
        obtain ⟨program, compiled, _⟩ := (typed found (List.mem_of_find?_eq_some first)).compile
        exact ⟨program, (single program).mpr ⟨found, first, compiled⟩⟩
    · intro program counters found later unified separators again
      obtain ⟨other, first, compiled⟩ := (single program).mp ⟨counters, unified, separators⟩
      rw [searched, first] at again
      cases again
      exact compiled

namespace SearchSpace

/-- Two rounds of sums and comparisons for pieces. -/
def sumConfig : SearchConfig :=
  { SearchConfig.standard with poolLimit := 100, coverRounds := 2, ops := [.plus, .lt] }

/-- The variable plus two is one piece of a unification and an answer of the enumeration. -/
theorem unificationSearch_single_plusTwo :
    0 < sumConfig.coverRounds ∧ plusTwo ≠ [] ∧ sumSpace.grammar.BoundBy plusTwo ∧
    (∀ case ∈ plusTwo, case.output.ty = .int) ∧
    (∀ counters, score sumConfig sumSpace.grammar plusTwo .zero ≠ .ok ⟨none, counters⟩) ∧
    Delivers ((sumConfig.coverRounds + 1) *
        max sumConfig.poolLimit sumSpace.grammar.terminals.length)
      (score sumConfig sumSpace.grammar plusTwo .zero) fun _ =>
        ((∃ program counters,
            unificationSearch sumConfig sumSpace.grammar plusTwo =
              .ok ⟨some program, counters⟩ ∧ counters.separators = 0) ↔
          ∃ found counters, enumerativeSearch (sumConfig.space sumSpace.grammar) plusTwo
            sumConfig.coverRounds sumConfig.poolLimit = .ok ⟨some found, counters⟩) ∧
        ∀ program counters found counted,
          unificationSearch sumConfig sumSpace.grammar plusTwo = .ok ⟨some program, counters⟩ →
          counters.separators = 0 →
          enumerativeSearch (sumConfig.space sumSpace.grammar) plusTwo sumConfig.coverRounds
            sumConfig.poolLimit = .ok ⟨some found, counted⟩ →
          found.compile = .ok program := by
  have positive : 0 < sumConfig.coverRounds := by decide
  have nonempty : plusTwo ≠ [] := by decide
  have bound : sumSpace.grammar.BoundBy plusTwo := by decide
  have integers : ∀ case ∈ plusTwo, case.output.ty = .int := by decide
  have typed := Grammar.typedPool_terminals sumSpace.grammar
  have persists : ∀ counters,
      score sumConfig sumSpace.grammar plusTwo .zero ≠ .ok ⟨none, counters⟩ := by
    intro counters scoring
    obtain ⟨top, climbed, _⟩ :=
      exists_climb bound nonempty rfl typed typed (sumSpace_roundsFit fun _ => False)
    cases climbed.symm.trans (climb_eq_none_of_score bound scoring)
  exact ⟨positive, nonempty, bound, integers, persists,
    unificationSearch_single_iff sumConfig sumSpace.grammar plusTwo positive nonempty bound
      integers persists⟩

end SearchSpace

end ProgramSynthesis
