import ProgramSynthesis.Proofs.Safety

/-!
# Searches that add to counters

A scoring and a merge go on from counters that earlier searches have left. What they return does
not depend on those: they count each level, check and search for a condition on its own, so from
any counters that fit their words they return what they return from none, and the counters of that
are absorbed. `Additive` is this law. Its rules follow the shape of the computations: a step may
record something, do without the counters, or go on from the counters of another additive step.
-/

namespace ProgramSynthesis

namespace Counters

variable {counters part rest sum : Counters}

/-- Counters are added to nothing. -/
theorem zero_plus (part : Counters) : zero.plus part = part := by
  simp only [plus, zero, Nat.zero_add, Nat.zero_max]

/-- Nothing is added to counters. -/
theorem plus_zero (counters : Counters) : counters.plus zero = counters := by
  simp only [plus, zero, Nat.add_zero, Nat.max_zero]

/-- Parts may be added to each other first. -/
theorem plus_assoc (counters part rest : Counters) :
    (counters.plus part).plus rest = counters.plus (part.plus rest) := by
  simp only [plus, Nat.add_assoc, Nat.max_assoc]

/-- Counters are no larger than their sum with a part. -/
theorem AtMost.of_plus {levels work separators : Nat}
    (within : (counters.plus part).AtMost levels work separators) :
    counters.AtMost levels work separators :=
  ⟨Nat.le_trans (Nat.le_add_right _ _) within.levels_le,
    Nat.le_trans (Nat.le_add_right _ _) within.grown_le,
    Nat.le_trans (Nat.le_add_right _ _) within.kept_le,
    Nat.le_trans (Nat.le_add_right _ _) within.checked_le,
    Nat.le_trans (Nat.le_add_right _ _) within.separators_le⟩

/-- A part is no larger than its sum with other counters. -/
theorem AtMost.of_plus_right {levels work separators : Nat}
    (within : (counters.plus part).AtMost levels work separators) :
    part.AtMost levels work separators :=
  ⟨Nat.le_trans (Nat.le_add_left _ _) within.levels_le,
    Nat.le_trans (Nat.le_add_left _ _) within.grown_le,
    Nat.le_trans (Nat.le_add_left _ _) within.kept_le,
    Nat.le_trans (Nat.le_add_left _ _) within.checked_le,
    Nat.le_trans (Nat.le_add_left _ _) within.separators_le⟩

/-- A part of fitting counters is absorbed by none. -/
theorem zero_absorb (within : part.Below maxCount) : zero.absorb part = .ok part :=
  absorb_eq_ok_iff.mpr ⟨(zero_plus part).symm, within⟩

/-- To absorb one part after another is to absorb what they make up. -/
theorem exists_absorb_iff :
    (∃ between, counters.absorb part = .ok between ∧ between.absorb rest = .ok sum) ↔
      ∃ both, part.absorb rest = .ok both ∧ counters.absorb both = .ok sum := by
  simp only [absorb_eq_ok_iff]
  constructor
  · rintro ⟨_, ⟨rfl, _⟩, rfl, within⟩
    rw [plus_assoc] at within ⊢
    exact ⟨_, ⟨rfl, within.of_plus_right⟩, rfl, within⟩
  · rintro ⟨_, ⟨rfl, _⟩, rfl, within⟩
    rw [← plus_assoc] at within ⊢
    exact ⟨_, ⟨rfl, within.of_plus⟩, rfl, within⟩

/-- Nothing can be added to a count that fits its word. -/
theorem addCount_zero {count : Nat} (within : count ≤ maxCount) :
    addCount count 0 = .ok count :=
  (addCount_eq_ok_iff count 0 count).mpr ⟨rfl, within⟩

/-- To record a level is to absorb one. -/
theorem recordLevel_eq_absorb (within : counters.Below maxCount) (growth size survivors : Nat) :
    counters.recordLevel growth size survivors =
      counters.absorb (zero.afterLevel growth size survivors) := by
  simp only [recordLevel, absorb, afterLevel, zero, addCount_zero within.checked_le,
    addCount_zero within.separators_le, Nat.zero_add, Nat.zero_max, ok_bind]

/-- To record checks is to absorb them. -/
theorem recordChecks_eq_absorb (within : counters.Below maxCount) (checks : Nat) :
    counters.recordChecks checks = counters.absorb (zero.afterChecks checks) := by
  simp only [recordChecks, absorb, afterChecks, zero, addCount_zero within.levels_le,
    addCount_zero within.grown_le, addCount_zero within.kept_le,
    addCount_zero within.separators_le, Nat.zero_add, Nat.max_zero, ok_bind]

/-- To record a search for a condition is to absorb one. -/
theorem recordSeparator_eq_absorb (within : counters.Below maxCount) :
    counters.recordSeparator = counters.absorb { zero with separators := 1 } := by
  simp only [recordSeparator, absorb, zero, addCount_zero within.levels_le,
    addCount_zero within.grown_le, addCount_zero within.kept_le,
    addCount_zero within.checked_le, Nat.max_zero, ok_bind]

end Counters

variable {α β σ : Type}

/-- Whether a computation only adds to the counters: from counters that fit their words it
returns what it returns from none, and absorbs the counters of that. -/
def Additive (outcome : Counters → Except Fault (Report α)) : Prop :=
  ∀ counters report, counters.Below maxCount →
    (outcome counters = .ok report ↔ ∃ alone,
      outcome .zero = .ok ⟨report.result, alone⟩ ∧
        counters.absorb alone = .ok report.counters)

namespace Additive

open Counters (exists_absorb_iff absorb_eq_ok_iff zero_absorb atMost_zero plus_zero)

variable {outcome : Counters → Except Fault (Report α)}

/-- The counters that an additive computation leaves fit their words. -/
theorem below (additive : Additive outcome) {counters : Counters} {report : Report α}
    (within : counters.Below maxCount) (returned : outcome counters = .ok report) :
    report.counters.Below maxCount := by
  obtain ⟨alone, _, absorbed⟩ := (additive counters report within).mp returned
  exact (absorb_eq_ok_iff.mp absorbed).2

/-- To return the counters as they are adds nothing. -/
theorem ok (result : Option α) : Additive fun counters => .ok ⟨result, counters⟩ := by
  intro counters report within
  have unchanged : counters.absorb .zero = .ok counters :=
    absorb_eq_ok_iff.mpr ⟨(plus_zero counters).symm, within⟩
  constructor
  · rintro ⟨⟩
    exact ⟨.zero, rfl, unchanged⟩
  · rintro ⟨alone, fresh, absorbed⟩
    cases fresh
    rw [unchanged] at absorbed
    cases absorbed
    rfl

/-- What does not read the counters may come before an additive computation. -/
theorem after {first : Except Fault σ} {next : σ → Counters → Except Fault (Report α)}
    (later : ∀ value, Additive (next value)) :
    Additive fun counters => first >>= fun value => next value counters := by
  cases first with
  | ok value => exact later value
  | error fault =>
    intro counters report _
    simp

/-- Additive computations in a row are additive. -/
theorem bind {next : Report α → Except Fault (Report β)} (first : Additive outcome)
    (second : ∀ result, Additive fun counters => next ⟨result, counters⟩) :
    Additive fun counters => outcome counters >>= next := by
  intro counters report within
  rw [bind_eq_ok_iff]
  constructor
  · rintro ⟨⟨result, between⟩, started, ended⟩
    obtain ⟨part, alone, absorbed⟩ := (first counters _ within).mp started
    have reached : between.Below maxCount := first.below within started
    obtain ⟨rest, onward, further⟩ := (second result between report reached).mp ended
    obtain ⟨both, joined, total⟩ := exists_absorb_iff.mp ⟨between, absorbed, further⟩
    have small : part.Below maxCount := first.below (atMost_zero _ _ _) alone
    have whole : next ⟨result, part⟩ = .ok ⟨report.result, both⟩ :=
      (second result part _ small).mpr ⟨rest, onward, joined⟩
    exact ⟨both, bind_eq_ok_iff.mpr ⟨_, alone, whole⟩, total⟩
  · rintro ⟨both, whole, total⟩
    obtain ⟨⟨result, part⟩, alone, ended⟩ := bind_eq_ok_iff.mp whole
    have small : part.Below maxCount := first.below (atMost_zero _ _ _) alone
    obtain ⟨rest, onward, joined⟩ := (second result part _ small).mp ended
    obtain ⟨between, absorbed, further⟩ := exists_absorb_iff.mpr ⟨both, joined, total⟩
    have started : outcome counters = .ok ⟨result, between⟩ :=
      (first counters _ within).mpr ⟨part, alone, absorbed⟩
    have reached : between.Below maxCount := first.below within started
    exact ⟨_, started, (second result between report reached).mpr ⟨rest, onward, further⟩⟩

/-- What is recorded before an additive computation is absorbed. Recording is itself an additive
step, one that returns nothing but the counters. -/
theorem record {recorded : Counters → Except Fault Counters}
    {next : Counters → Except Fault (Report α)} {part : Counters}
    (same : ∀ counters, counters.Below maxCount → recorded counters = counters.absorb part)
    (later : Additive next) : Additive fun counters => recorded counters >>= next := by
  have step : Additive fun counters => recorded counters >>= fun sum =>
      pure (Report.mk (some ()) sum) := by
    rintro counters ⟨result, total⟩ within
    simp only [same counters within, same .zero (atMost_zero _ _ _)]
    constructor
    · intro returned
      obtain ⟨sum, absorbed, ended⟩ := bind_eq_ok_iff.mp returned
      cases ended
      have small : part.Below maxCount := by
        obtain ⟨rfl, fits⟩ := absorb_eq_ok_iff.mp absorbed
        exact fits.of_plus_right
      rw [zero_absorb small]
      exact ⟨part, rfl, absorbed⟩
    · rintro ⟨alone, fresh, absorbed⟩
      obtain ⟨sum, none, ended⟩ := bind_eq_ok_iff.mp fresh
      obtain ⟨rfl, _⟩ := absorb_eq_ok_iff.mp none
      rw [Counters.zero_plus] at ended
      cases ended
      rw [absorbed]
      rfl
  have whole : Additive fun counters => (recorded counters >>= fun sum =>
      pure (Report.mk (some ()) sum)) >>= fun report => next report.counters :=
    step.bind fun _ => later
  simpa only [bind_assoc, pure_bind] using whole

end Additive

/-- A level adds to the counters. -/
theorem additive_growLevel (space : SearchSpace) (examples : List Example) (poolLimit : Nat)
    (pool : List Candidate) : Additive (growLevel space examples poolLimit pool) := by
  refine .after fun growth => ?_
  by_cases large : poolLimit < min (pool.length + growth) maxCount
  · simp only [if_pos large]
    exact .ok none
  · simp only [if_neg large]
    refine .after fun candidates => .after fun survivors => ?_
    exact .record (fun counters within => Counters.recordLevel_eq_absorb within _ _ _)
      (.ok (some survivors))

/-- Levels add to the counters. -/
theorem additive_growLevels (space : SearchSpace) (examples : List Example)
    (poolLimit rounds : Nat) (pool : List Candidate) :
    Additive (growLevels space examples poolLimit rounds pool) := by
  induction rounds generalizing pool with
  | zero => exact .ok (some pool)
  | succ rounds ih =>
    refine (additive_growLevel space examples poolLimit pool).bind fun next => ?_
    cases next with
    | none => exact .ok none
    | some next => exact ih next

/-- A scoring adds to the counters. -/
theorem additive_score (config : SearchConfig) (grammar : Grammar) (examples : List Example) :
    Additive (score config grammar examples) := by
  refine (additive_growLevels _ examples _ _ _).bind fun grown => ?_
  cases grown with
  | none => exact .ok none
  | some pool =>
    refine .after fun programs => ?_
    refine .record (fun counters within => Counters.recordChecks_eq_absorb within _) ?_
    exact .after fun scored => .ok (some scored)

/-- A merge adds to the counters. -/
theorem additive_unify (config : SearchConfig) (grammar : Grammar) (examples : List Example)
    (first second : Piece) : Additive (unify config grammar examples first second) := by
  refine .after fun found => ?_
  refine .record (fun counters within => Counters.recordSeparator_eq_absorb within) ?_
  refine .record (fun counters _ => rfl) ?_
  cases found.result with
  | none => exact .ok none
  | some separator =>
    exact .after fun mask => .after fun condition => .ok _

end ProgramSynthesis
