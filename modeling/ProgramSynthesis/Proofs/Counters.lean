import ProgramSynthesis.Proofs.Fallible
import ProgramSynthesis.Search.Counters

/-!
# Counters under a bound

An addition to a counter succeeds as long as the sum stays below a bound that fits a machine
word. `Counters.AtMost` says how much of the bound the counters of a search have used; the
operations on counters deliver, and use up what they add.
-/

namespace ProgramSynthesis

/-- An addition within the bound is exact. -/
theorem addCount_delivers {bound count amount : Nat}
    (room : count + amount ≤ bound ∨ maxCount ≤ bound) :
    Delivers bound (addCount count amount) fun sum =>
      sum = count + amount ∧ count + amount ≤ maxCount := by
  unfold addCount
  split
  · rename_i fits
    exact .ok ⟨rfl, fits⟩
  · rename_i large
    exact .inr ⟨by omega, rfl⟩

namespace Counters

/-- The counters after a growth round. -/
def afterLevel (counters : Counters) (growth size survivors : Nat) : Counters :=
  { counters with
    levels := counters.levels + 1
    grown := counters.grown + growth
    kept := counters.kept + survivors
    largest := max counters.largest size }

/-- The counters after some checks. -/
def afterChecks (counters : Counters) (checks : Nat) : Counters :=
  { counters with checked := counters.checked + checks }

/-- A level checks nothing. -/
@[simp] theorem afterLevel_checked (counters : Counters) (growth size survivors : Nat) :
    (counters.afterLevel growth size survivors).checked = counters.checked := rfl

/-- Checks are added to those before. -/
@[simp] theorem afterChecks_checked (counters : Counters) (checks : Nat) :
    (counters.afterChecks checks).checked = counters.checked + checks := rfl

/-- Checks are counted one after the other. -/
theorem afterChecks_afterChecks (counters : Counters) (first second : Nat) :
    (counters.afterChecks first).afterChecks second = counters.afterChecks (first + second) := by
  simp only [afterChecks, Nat.add_assoc]

/-- The counters with those of a part added, of which the largest pool is kept. -/
def plus (counters part : Counters) : Counters where
  levels := counters.levels + part.levels
  grown := counters.grown + part.grown
  kept := counters.kept + part.kept
  checked := counters.checked + part.checked
  largest := max counters.largest part.largest
  separators := counters.separators + part.separators

/-- How much of a bound is used: the growth rounds, the work of every kind, and the searches
for a branch condition. -/
structure AtMost (counters : Counters) (levels work separators : Nat) : Prop where
  /-- The growth rounds are within `levels`. -/
  levels_le : counters.levels ≤ levels
  /-- What growth added is within `work`. -/
  grown_le : counters.grown ≤ work
  /-- What reduction kept is within `work`. -/
  kept_le : counters.kept ≤ work
  /-- What was checked is within `work`. -/
  checked_le : counters.checked ≤ work
  /-- The searches for a branch condition are within `separators`. -/
  separators_le : counters.separators ≤ separators

variable {counters part : Counters} {bound : Nat}

/-- Nothing is used before a search. -/
theorem atMost_zero (levels work separators : Nat) : zero.AtMost levels work separators :=
  ⟨Nat.zero_le _, Nat.zero_le _, Nat.zero_le _, Nat.zero_le _, Nat.zero_le _⟩

/-- A larger allowance is used no more than a smaller one. -/
theorem AtMost.mono {levels work separators levels' work' separators' : Nat}
    (used : counters.AtMost levels work separators) (more : levels ≤ levels') (most : work ≤ work')
    (further : separators ≤ separators') : counters.AtMost levels' work' separators' :=
  ⟨Nat.le_trans used.levels_le more, Nat.le_trans used.grown_le most,
    Nat.le_trans used.kept_le most, Nat.le_trans used.checked_le most,
    Nat.le_trans used.separators_le further⟩

/-- A growth round within the bound is counted exactly. -/
theorem recordLevel_delivers {growth size survivors : Nat} (levelRoom : counters.levels + 1 ≤ bound)
    (grownRoom : counters.grown + growth ≤ bound)
    (keptRoom : counters.kept + survivors ≤ bound ∨ maxCount ≤ bound) :
    Delivers bound (counters.recordLevel growth size survivors) fun later =>
      later = counters.afterLevel growth size survivors ∧
        counters.kept + survivors ≤ maxCount := by
  refine (addCount_delivers (.inl levelRoom)).bind fun levels levelsCounted => ?_
  refine (addCount_delivers (.inl grownRoom)).bind fun grown grownCounted => ?_
  refine (addCount_delivers keptRoom).bind fun kept keptCounted => .ok ⟨?_, keptCounted.2⟩
  rw [levelsCounted.1, grownCounted.1, keptCounted.1, afterLevel]

/-- A growth round is counted exactly when every sum fits. -/
theorem recordLevel_eq_ok_iff {growth size survivors : Nat} {later : Counters} :
    counters.recordLevel growth size survivors = .ok later ↔
      (counters.levels + 1 ≤ maxCount ∧ counters.grown + growth ≤ maxCount ∧
        counters.kept + survivors ≤ maxCount) ∧
      later = counters.afterLevel growth size survivors := by
  simp only [recordLevel, bind_eq_ok_iff, addCount_eq_ok_iff, pure_eq_ok, Except.ok.injEq]
  constructor
  · rintro ⟨_, ⟨rfl, levels⟩, _, ⟨rfl, grown⟩, _, ⟨rfl, kept⟩, rfl⟩
    exact ⟨⟨levels, grown, kept⟩, rfl⟩
  · rintro ⟨⟨levels, grown, kept⟩, rfl⟩
    exact ⟨_, ⟨rfl, levels⟩, _, ⟨rfl, grown⟩, _, ⟨rfl, kept⟩, rfl⟩

/-- Checks are counted exactly when the sum fits. -/
theorem recordChecks_eq (counters : Counters) (checks : Nat) :
    counters.recordChecks checks =
      if counters.checked + checks ≤ maxCount then .ok (counters.afterChecks checks)
      else .error (.overflow .add) := by
  rw [recordChecks, addCount]
  split
  · rfl
  · rfl

/-- Checks within the bound are counted exactly. -/
theorem recordChecks_delivers {amount : Nat}
    (room : counters.checked + amount ≤ bound ∨ maxCount ≤ bound) :
    Delivers bound (counters.recordChecks amount) fun later =>
      later = counters.afterChecks amount := by
  rw [recordChecks_eq]
  split
  · exact .ok rfl
  · exact .inr ⟨by omega, rfl⟩

/-- A search for a branch condition within the bound is counted exactly. -/
theorem recordSeparator_delivers (room : counters.separators + 1 ≤ bound) :
    Delivers bound counters.recordSeparator fun later =>
      later = { counters with separators := counters.separators + 1 } := by
  refine (addCount_delivers (.inl room)).bind fun separators counted => .ok ?_
  rw [counted.1]

/-- The counters of a part within the bound are added exactly. -/
theorem absorb_delivers (levelRoom : counters.levels + part.levels ≤ bound)
    (grownRoom : counters.grown + part.grown ≤ bound)
    (keptRoom : counters.kept + part.kept ≤ bound)
    (checkedRoom : counters.checked + part.checked ≤ bound)
    (separatorRoom : counters.separators + part.separators ≤ bound) :
    Delivers bound (counters.absorb part) fun later =>
      later = {
        levels := counters.levels + part.levels
        grown := counters.grown + part.grown
        kept := counters.kept + part.kept
        checked := counters.checked + part.checked
        largest := max counters.largest part.largest
        separators := counters.separators + part.separators } := by
  refine (addCount_delivers (.inl levelRoom)).bind fun levels levelsCounted => ?_
  refine (addCount_delivers (.inl grownRoom)).bind fun grown grownCounted => ?_
  refine (addCount_delivers (.inl keptRoom)).bind fun kept keptCounted => ?_
  refine (addCount_delivers (.inl checkedRoom)).bind fun checked checkedCounted => ?_
  refine (addCount_delivers (.inl separatorRoom)).bind fun separators counted => .ok ?_
  rw [levelsCounted.1, grownCounted.1, keptCounted.1, checkedCounted.1, counted.1]

/-- A counted search for a branch condition is one more. -/
theorem eq_of_recordSeparator {later : Counters} (counted : counters.recordSeparator = .ok later) :
    later = { counters with separators := counters.separators + 1 } :=
  (recordSeparator_delivers (Nat.le_refl _)).of_ok counted

/-- A part is absorbed exactly when the sum fits. -/
theorem absorb_eq_ok_iff {sum : Counters} :
    counters.absorb part = .ok sum ↔
      sum = counters.plus part ∧ sum.AtMost maxCount maxCount maxCount := by
  simp only [absorb, bind_eq_ok_iff, addCount_eq_ok_iff, pure_eq_ok, Except.ok.injEq]
  constructor
  · rintro ⟨_, ⟨rfl, levels⟩, _, ⟨rfl, grown⟩, _, ⟨rfl, kept⟩, _, ⟨rfl, checked⟩, _,
      ⟨rfl, separators⟩, rfl⟩
    exact ⟨rfl, levels, grown, kept, checked, separators⟩
  · rintro ⟨rfl, levels, grown, kept, checked, separators⟩
    exact ⟨_, ⟨rfl, levels⟩, _, ⟨rfl, grown⟩, _, ⟨rfl, kept⟩, _, ⟨rfl, checked⟩, _,
      ⟨rfl, separators⟩, rfl⟩

/-- A sum that is returned is the sum of the counters, of which the largest pool is kept. -/
theorem eq_of_absorb {sum : Counters} (summed : counters.absorb part = .ok sum) :
    sum = {
      levels := counters.levels + part.levels
      grown := counters.grown + part.grown
      kept := counters.kept + part.kept
      checked := counters.checked + part.checked
      largest := max counters.largest part.largest
      separators := counters.separators + part.separators } :=
  (absorb_eq_ok_iff.mp summed).1

end Counters

end ProgramSynthesis
