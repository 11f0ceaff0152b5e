import ProgramSynthesis.Proofs.Stages

/-!
# Two runs in step

Two computations agree when they return related values or fault alike; one follows another when it
returns something related to whatever the other returns. Both carry over from the parts of a
computation to the whole. So do they for two runs of the unification search: as long as their
steps agree, or follow each other, their reports do.
-/

namespace ProgramSynthesis

variable {α β γ δ : Type}

/-- Whether two computations return related values or the same fault. -/
inductive Agree (related : α → β → Prop) : Except Fault α → Except Fault β → Prop where
  /-- Both return, and the values are related. -/
  | ok {value : α} {other : β} (values : related value other) :
    Agree related (.ok value) (.ok other)
  /-- Both fault alike. -/
  | fault (fault : Fault) : Agree related (.error fault) (.error fault)

namespace Agree

variable {related : α → β → Prop} {outcome : Except Fault α} {other : Except Fault β}

/-- Computations that agree on equality are equal. -/
theorem eq {left right : Except Fault α} (agree : Agree Eq left right) : left = right := by
  cases agree with
  | ok values => rw [values]
  | fault _ => rfl

/-- Computations that agree on an image are one computation and its image. -/
theorem eq_map {image : α → β}
    (agree : Agree (fun value partner => partner = image value) outcome other) :
    other = outcome.map image := by
  cases agree with
  | ok values => rw [values, Except.map]
  | fault _ => rfl

/-- A computation agrees with itself. -/
theorem refl (outcome : Except Fault α) : Agree Eq outcome outcome := by
  cases outcome with
  | ok value => exact .ok rfl
  | error fault => exact .fault fault

/-- Computations that agree on one relation agree on a wider one. -/
theorem imp {wider : α → β → Prop} (agree : Agree related outcome other)
    (implies : ∀ value partner, related value partner → wider value partner) :
    Agree wider outcome other := by
  cases agree with
  | ok values => exact .ok (implies _ _ values)
  | fault fault => exact .fault fault

/-- Related values are those that are returned. -/
theorem returned (agree : Agree related outcome other) :
    Agree (fun value partner => related value partner ∧ outcome = .ok value ∧ other = .ok partner)
      outcome other := by
  cases agree with
  | ok values => exact .ok ⟨values, rfl, rfl⟩
  | fault fault => exact .fault fault

/-- Computations that agree stay in agreement when they go on alike from related values. -/
theorem bind {further : γ → δ → Prop} {next : α → Except Fault γ} {later : β → Except Fault δ}
    (first : Agree related outcome other)
    (second : ∀ value partner, related value partner →
      Agree further (next value) (later partner)) :
    Agree further (outcome >>= next) (other >>= later) := by
  cases first with
  | ok values => exact second _ _ values
  | fault fault => exact .fault fault

/-- Computations that go on from one outcome agree when they do so from each value. -/
theorem bind_same {further : γ → δ → Prop} {next : α → Except Fault γ}
    {later : α → Except Fault δ} (second : ∀ value, Agree further (next value) (later value)) :
    Agree further (outcome >>= next) (outcome >>= later) := by
  refine (refl outcome).bind fun value partner same => ?_
  rw [same]
  exact second partner

/-- Computations that agree on an image go on from a value that is returned and from its image. -/
theorem bind_image {image : α → β} {further : γ → δ → Prop} {next : α → Except Fault γ}
    {later : β → Except Fault δ}
    (first : Agree (fun value partner => partner = image value) outcome other)
    (second : ∀ value, outcome = .ok value → Agree further (next value) (later (image value))) :
    Agree further (outcome >>= next) (other >>= later) := by
  refine first.returned.bind fun value partner both => ?_
  obtain ⟨same, here, _⟩ := both
  rw [same]
  exact second value here

/-- Runs over one list agree when their members do. -/
theorem mapM {f : γ → Except Fault α} {g : γ → Except Fault β} {members : List γ}
    (each : ∀ member ∈ members, Agree related (f member) (g member)) :
    Agree (List.Forall₂ related) (members.mapM f) (members.mapM g) := by
  induction members with
  | nil => exact .ok .nil
  | cons member members ih =>
    have tail := ih fun later inside => each later (List.mem_cons_of_mem member inside)
    rw [List.mapM_cons, List.mapM_cons]
    refine (each member List.mem_cons_self).bind fun value partner values => ?_
    exact tail.bind fun rest others same => .ok (.cons values same)

end Agree

/-- Whether a computation returns something related to whatever another returns. -/
def Follows (related : α → β → Prop) (outcome : Except Fault α) (other : Except Fault β) : Prop :=
  ∀ value, outcome = .ok value → ∃ partner, other = .ok partner ∧ related value partner

namespace Follows

variable {related : α → β → Prop} {outcome : Except Fault α} {other : Except Fault β}

/-- Related values that are both returned. -/
theorem ok {value : α} {partner : β} (values : related value partner) :
    Follows related (.ok value) (.ok partner) := by
  rintro _ ⟨⟩
  exact ⟨partner, rfl, values⟩

/-- A computation follows itself. -/
theorem refl (outcome : Except Fault α) : Follows Eq outcome outcome :=
  fun value returned => ⟨value, returned, rfl⟩

/-- Related values are those that are returned. -/
theorem returned (follows : Follows related outcome other) :
    Follows (fun value partner => related value partner ∧ outcome = .ok value ∧
      other = .ok partner) outcome other := by
  intro value here
  obtain ⟨partner, there, values⟩ := follows value here
  exact ⟨partner, there, values, here, there⟩

/-- What follows a computation still follows it when both go on from related values. -/
theorem bind {further : γ → δ → Prop} {next : α → Except Fault γ} {later : β → Except Fault δ}
    (first : Follows related outcome other)
    (second : ∀ value partner, related value partner →
      Follows further (next value) (later partner)) :
    Follows further (outcome >>= next) (other >>= later) := by
  intro result ended
  obtain ⟨value, here, ended⟩ := bind_eq_ok_iff.mp ended
  obtain ⟨partner, there, values⟩ := first value here
  obtain ⟨last, final, same⟩ := second value partner values result ended
  exact ⟨last, bind_eq_ok_iff.mpr ⟨partner, there, final⟩, same⟩

/-- What goes on from one outcome follows when it does so from each value. -/
theorem bind_same {further : γ → δ → Prop} {next : α → Except Fault γ}
    {later : α → Except Fault δ} (second : ∀ value, Follows further (next value) (later value)) :
    Follows further (outcome >>= next) (outcome >>= later) := by
  refine (refl outcome).bind fun value partner same => ?_
  rw [same]
  exact second partner

end Follows

/-- Whether two steps lead to related stages or end with related reports. -/
inductive Transition.Matched (related : Stage → Counters → Stage → Counters → Prop)
    (reports : Report Expr → Report Expr → Prop) : Transition → Transition → Prop where
  /-- Both runs go on. -/
  | next {stage counters partner others} (stages : related stage counters partner others) :
    Matched related reports (.next stage counters) (.next partner others)
  /-- Both runs end. -/
  | stop {report other} (same : reports report other) :
    Matched related reports (.stop report) (.stop other)

/-- Runs from related stages agree when steps from related stages do. The measure of the first run
goes down, and the second run keeps step. -/
theorem Stage.run_agree {config config' : SearchConfig} {grammar grammar' : Grammar}
    {examples examples' : List Example} {scored scored' : List Scored}
    {related : Stage → Counters → Stage → Counters → Prop}
    {reports : Report Expr → Report Expr → Prop}
    (stepped : ∀ stage counters stage' counters', related stage counters stage' counters' →
      Agree (Transition.Matched related reports)
        (stage.step config grammar examples scored counters)
        (stage'.step config' grammar' examples' scored' counters'))
    {stage stage' : Stage} {counters counters' : Counters}
    (exact : stage.Exact examples) (exact' : stage'.Exact examples')
    (start : related stage counters stage' counters') :
    Agree reports (stage.run config grammar examples scored counters exact)
      (stage'.run config' grammar' examples' scored' counters' exact') := by
  induction measured : stage.measure using Nat.strong_induction_on
    generalizing stage stage' counters counters' with
  | _ size ih =>
    have both := stepped stage counters stage' counters' start
    generalize here : stage.step config grammar examples scored counters = outcome at both
    generalize there : stage'.step config' grammar' examples' scored' counters' = other at both
    cases both with
    | fault fault =>
      rw [run_eq_of_fault exact here, run_eq_of_fault exact' there]
      exact .fault fault
    | ok transitions =>
      cases transitions with
      | stop same =>
        rw [run_eq_of_stop exact here, run_eq_of_stop exact' there]
        exact .ok same
      | next stages =>
        have moved := moves_of_step here
        rw [run_eq_of_next exact here, run_eq_of_next exact' there]
        exact ih _ (measured ▸ measure_lt_of_moves exact moved) (exact_of_moves moved)
          (exact_of_moves (moves_of_step there)) stages rfl

/-- A run follows another from a related stage when its steps follow those of the other. -/
theorem Stage.run_follows {config config' : SearchConfig} {grammar grammar' : Grammar}
    {examples examples' : List Example} {scored scored' : List Scored}
    {related : Stage → Counters → Stage → Counters → Prop}
    {reports : Report Expr → Report Expr → Prop}
    (stepped : ∀ stage counters stage' counters', related stage counters stage' counters' →
      Follows (Transition.Matched related reports)
        (stage.step config grammar examples scored counters)
        (stage'.step config' grammar' examples' scored' counters'))
    {stage stage' : Stage} {counters counters' : Counters}
    (exact : stage.Exact examples) (exact' : stage'.Exact examples')
    (start : related stage counters stage' counters') :
    Follows reports (stage.run config grammar examples scored counters exact)
      (stage'.run config' grammar' examples' scored' counters' exact') := by
  induction measured : stage.measure using Nat.strong_induction_on
    generalizing stage stage' counters counters' with
  | _ size ih =>
    cases here : stage.step config grammar examples scored counters with
    | error fault =>
      rw [run_eq_of_fault exact here]
      rintro _ ⟨⟩
    | ok transition =>
      obtain ⟨partner, there, both⟩ := stepped stage counters stage' counters' start transition here
      cases both with
      | stop same =>
        rw [run_eq_of_stop exact here, run_eq_of_stop exact' there]
        exact .ok same
      | next stages =>
        have moved := moves_of_step here
        rw [run_eq_of_next exact here, run_eq_of_next exact' there]
        exact ih _ (measured ▸ measure_lt_of_moves exact moved) (exact_of_moves moved)
          (exact_of_moves (moves_of_step there)) stages rfl

end ProgramSynthesis
