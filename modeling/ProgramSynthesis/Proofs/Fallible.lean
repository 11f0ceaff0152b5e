import Mathlib.Data.List.Forall2
import ProgramSynthesis.Fault
import ProgramSynthesis.Word

/-!
# Computations that may fault

How a computation that may fault is taken apart, and what a run over a list returns when no
member faults. `Delivers` is the form of the results on whole searches: a search returns what
it should unless its bounds are so large that a counter might leave its word.
-/

namespace ProgramSynthesis

variable {α β ε : Type}

/-- A computation goes on with the value of the one before it. -/
@[simp] theorem ok_bind (value : α) (next : α → Except ε β) :
    (Except.ok value >>= next) = next value := rfl

/-- A fault ends the computation. -/
@[simp] theorem error_bind (fault : ε) (next : α → Except ε β) :
    (Except.error fault >>= next) = .error fault := rfl

/-- Returning a value never faults. -/
@[simp] theorem pure_eq_ok (value : α) : (pure value : Except Fault α) = .ok value := rfl

/-- Two computations in a row return a value exactly when both return one. -/
theorem bind_eq_ok_iff {outcome : Except Fault α} {next : α → Except Fault β} {value : β} :
    (outcome >>= next) = .ok value ↔ ∃ first, outcome = .ok first ∧ next first = .ok value := by
  cases outcome with
  | ok first => simp
  | error fault => simp

/-- Two computations in a row fault when the first one does, or the second after it. -/
theorem bind_eq_error_iff {outcome : Except Fault α} {next : α → Except Fault β} {fault : Fault} :
    (outcome >>= next) = .error fault ↔
      outcome = .error fault ∨ ∃ value, outcome = .ok value ∧ next value = .error fault := by
  cases outcome with
  | ok value => simp
  | error other => simp

/-- A computation returns a value exactly when it does not fault. -/
theorem exists_eq_ok_iff {outcome : Except Fault α} :
    (∃ value, outcome = .ok value) ↔ ∀ fault, outcome ≠ .error fault := by
  cases outcome with
  | ok value => simp
  | error fault => simp

/-- Computations that go on alike from every value that is returned are equal. -/
theorem bind_congr_of_ok {outcome : Except Fault α} {next other : α → Except Fault β}
    (same : ∀ value, outcome = .ok value → next value = other value) :
    (outcome >>= next) = (outcome >>= other) := by
  cases outcome with
  | ok value => exact same value rfl
  | error fault => rfl

/-- A run over a list returns the list of values exactly when each member returns its value. -/
theorem mapM_eq_ok_iff {f : α → Except Fault β} {members : List α} {values : List β} :
    members.mapM f = .ok values ↔
      List.Forall₂ (fun member value => f member = .ok value) members values := by
  induction members generalizing values with
  | nil =>
    rw [List.mapM_nil, pure_eq_ok, Except.ok.injEq, List.forall₂_nil_left_iff]
    exact eq_comm
  | cons member members ih =>
    rw [List.mapM_cons, bind_eq_ok_iff]
    constructor
    · rintro ⟨value, returned, rest⟩
      obtain ⟨later, all, same⟩ := bind_eq_ok_iff.mp rest
      cases same
      exact .cons returned (ih.mp all)
    · intro each
      cases each with
      | cons returned later => exact ⟨_, returned, bind_eq_ok_iff.mpr ⟨_, ih.mpr later, rfl⟩⟩

/-- A run over a list returns values exactly when these are what the members return, in order. -/
theorem mapM_eq_ok_iff_map_eq {f : α → Except Fault β} {members : List α} {values : List β} :
    members.mapM f = .ok values ↔ members.map f = values.map .ok := by
  rw [mapM_eq_ok_iff, ← List.forall₂_eq_eq_eq, List.forall₂_map_left_iff,
    List.forall₂_map_right_iff]

/-- Values that are returned alike are equal, one by one. -/
theorem map_ok_injective :
    Function.Injective (List.map (Except.ok (ε := Fault) : α → Except Fault α)) :=
  List.map_injective_iff.mpr fun _ _ => Except.ok.inj

/-- Relations that agree on the members facing each other relate the same lists. -/
theorem forall₂_congr_of_zip {first second : α → β → Prop} {lefts : List α} {rights : List β}
    (agree : ∀ left right, (left, right) ∈ lefts.zip rights →
      (first left right ↔ second left right)) :
    List.Forall₂ first lefts rights ↔ List.Forall₂ second lefts rights := by
  rw [List.forall₂_iff_zip, List.forall₂_iff_zip]
  refine and_congr_right fun _ => forall₂_congr fun left right => ?_
  exact forall_congr' fun facing => agree left right facing

/-- A run over a list in which each member returns a known value. -/
theorem mapM_eq_ok_map {f : α → Except Fault β} {g : α → β} {members : List α}
    (each : ∀ member ∈ members, f member = .ok (g member)) :
    members.mapM f = .ok (members.map g) := by
  rw [mapM_eq_ok_iff, List.forall₂_map_right_iff, List.forall₂_same]
  exact each

/-- Runs over one list are equal when each member does the same in both. -/
theorem mapM_congr {f g : α → Except Fault β} {members : List α}
    (same : ∀ member ∈ members, f member = g member) : members.mapM f = members.mapM g := by
  induction members with
  | nil => rfl
  | cons member members ih =>
    rw [List.mapM_cons, List.mapM_cons, same member List.mem_cons_self,
      ih fun other inside => same other (List.mem_cons_of_mem member inside)]

/-- A run over a list returns values when each member returns one. -/
theorem exists_mapM_eq_ok {f : α → Except Fault β} {members : List α}
    (each : ∀ member ∈ members, ∃ value, f member = .ok value) :
    ∃ values, members.mapM f = .ok values := by
  induction members with
  | nil => exact ⟨[], rfl⟩
  | cons member members ih =>
    obtain ⟨value, returned⟩ := each member List.mem_cons_self
    obtain ⟨values, all⟩ := ih fun other inside => each other (List.mem_cons_of_mem member inside)
    exact ⟨value :: values, by rw [List.mapM_cons, returned, all]; rfl⟩

/-- Each value of a run over a list is returned by a member. -/
theorem exists_of_mem_mapM {f : α → Except Fault β} {members : List α} {values : List β} {value : β}
    (all : members.mapM f = .ok values) (inside : value ∈ values) :
    ∃ member ∈ members, f member = .ok value := by
  obtain ⟨position, bound, rfl⟩ := List.getElem_of_mem inside
  have each := mapM_eq_ok_iff.mp all
  have within : position < members.length := each.length_eq ▸ bound
  exact ⟨members[position], List.getElem_mem within, each.get within bound⟩

/-- Whether a run over a list gets as far as a position and meets its first fault there. -/
structure FaultsFirst (f : α → Except Fault β) (members : List α) (index : Nat) (fault : Fault) :
    Prop where
  /-- The members before the position return values. -/
  before : ∀ member ∈ members.take index, ∃ value, f member = .ok value
  /-- The member there faults. -/
  here : ∃ member, members[index]? = some member ∧ f member = .error fault

/-- Computations that fault on the same members, and alike, meet the same first fault. -/
theorem faultsFirst_congr {γ : Type} {f : α → Except Fault β} {g : α → Except Fault γ}
    {members : List α} {index : Nat} {fault : Fault}
    (same : ∀ member fault, f member = .error fault ↔ g member = .error fault) :
    FaultsFirst f members index fault ↔ FaultsFirst g members index fault := by
  have returns : ∀ member, (∃ value, f member = .ok value) ↔ ∃ value, g member = .ok value := by
    intro member
    rw [exists_eq_ok_iff, exists_eq_ok_iff]
    exact forall_congr' fun fault => not_congr (same member fault)
  constructor
  · rintro ⟨before, member, found, faulted⟩
    exact ⟨fun other inside => (returns other).mp (before other inside), member, found,
      (same member fault).mp faulted⟩
  · rintro ⟨before, member, found, faulted⟩
    exact ⟨fun other inside => (returns other).mpr (before other inside), member, found,
      (same member fault).mpr faulted⟩

/-- The first fault is at the head of a list when the head faults. -/
theorem faultsFirst_cons_zero_iff {f : α → Except Fault β} {member : α} {members : List α}
    {fault : Fault} : FaultsFirst f (member :: members) 0 fault ↔ f member = .error fault := by
  constructor
  · rintro ⟨_, other, found, faulted⟩
    rwa [Option.some.inj found]
  · intro faulted
    exact ⟨nofun, member, rfl, faulted⟩

/-- The first fault is in the tail of a list when the head returns a value. -/
theorem faultsFirst_cons_succ_iff {f : α → Except Fault β} {member : α} {members : List α}
    {index : Nat} {fault : Fault} : FaultsFirst f (member :: members) (index + 1) fault ↔
      (∃ value, f member = .ok value) ∧ FaultsFirst f members index fault := by
  constructor
  · rintro ⟨before, here⟩
    rw [List.take_succ_cons, List.forall_mem_cons] at before
    exact ⟨before.1, before.2, here⟩
  · rintro ⟨returned, before, here⟩
    refine ⟨?_, here⟩
    rw [List.take_succ_cons, List.forall_mem_cons]
    exact ⟨returned, before⟩

/-- A run over a list faults exactly when it meets a first fault. -/
theorem mapM_eq_error_iff {f : α → Except Fault β} {members : List α} {fault : Fault} :
    members.mapM f = .error fault ↔ ∃ index, FaultsFirst f members index fault := by
  induction members with
  | nil =>
    rw [List.mapM_nil, pure_eq_ok]
    refine ⟨nofun, ?_⟩
    rintro ⟨_, _, _, found, _⟩
    cases found
  | cons member members ih =>
    have rest : ∀ value, (members.mapM f >>= fun values => pure (value :: values)) =
        .error fault ↔ members.mapM f = .error fault := by
      intro value
      rw [bind_eq_error_iff]
      simp
    rw [List.mapM_cons, bind_eq_error_iff]
    simp only [rest, ih]
    constructor
    · rintro (faulted | ⟨value, returned, index, first⟩)
      · exact ⟨0, faultsFirst_cons_zero_iff.mpr faulted⟩
      · exact ⟨index + 1, faultsFirst_cons_succ_iff.mpr ⟨⟨value, returned⟩, first⟩⟩
    · rintro ⟨index, first⟩
      cases index with
      | zero => exact .inl (faultsFirst_cons_zero_iff.mp first)
      | succ index =>
        obtain ⟨⟨value, returned⟩, later⟩ := faultsFirst_cons_succ_iff.mp first
        exact .inr ⟨value, returned, index, later⟩

/-- Members whose test returns a known answer are selected by that answer. -/
theorem filterM_eq_ok_filter {test : α → Except Fault Bool} {answer : α → Bool}
    {members : List α} (each : ∀ member ∈ members, test member = .ok (answer member)) :
    members.filterM test = .ok (members.filter answer) := by
  have loop : ∀ (members selected : List α),
      (∀ member ∈ members, test member = .ok (answer member)) →
      members.filterAuxM test selected = .ok ((members.filter answer).reverse ++ selected) := by
    intro members
    induction members with
    | nil =>
      intro selected _
      rfl
    | cons member members ih =>
      intro selected each
      rw [List.filterAuxM, each member List.mem_cons_self, ok_bind,
        ih _ fun other inside => each other (List.mem_cons_of_mem member inside)]
      cases chosen : answer member <;> simp [chosen]
  rw [List.filterM, loop members [] each]
  simp

/-- A computation returns a value with a property, or, when its bound reaches the largest machine
word, it may overflow a counter instead. -/
def Delivers (bound : Nat) (outcome : Except Fault α) (property : α → Prop) : Prop :=
  (∃ value, outcome = .ok value ∧ property value) ∨
    (maxCount ≤ bound ∧ outcome = .error (.overflow .add))

namespace Delivers

variable {bound : Nat} {outcome : Except Fault α} {property : α → Prop}

/-- A returned value delivers. -/
theorem ok {value : α} (holds : property value) : Delivers bound (.ok value) property :=
  .inl ⟨value, rfl, holds⟩

/-- What follows a delivering computation delivers under the same bound. -/
theorem bind {next : α → Except Fault β} {result : β → Prop}
    (first : Delivers bound outcome property)
    (second : ∀ value, property value → Delivers bound (next value) result) :
    Delivers bound (outcome >>= next) result := by
  rcases first with ⟨value, rfl, holds⟩ | ⟨large, rfl⟩
  · exact second value holds
  · exact .inr ⟨large, rfl⟩

/-- A weaker property is delivered too. -/
theorem imp {weaker : α → Prop} (first : Delivers bound outcome property)
    (implies : ∀ value, property value → weaker value) : Delivers bound outcome weaker := by
  rcases first with ⟨value, returned, holds⟩ | overflows
  · exact .inl ⟨value, returned, implies value holds⟩
  · exact .inr overflows

/-- What is true of whatever is returned is delivered. -/
theorem of_forall_ok {other : α → Prop} (first : Delivers bound outcome property)
    (returns : ∀ value, outcome = .ok value → other value) : Delivers bound outcome other := by
  rcases first with ⟨value, returned, _⟩ | overflows
  · exact .inl ⟨value, returned, returns value returned⟩
  · exact .inr overflows

/-- Under a bound below the largest machine word no counter overflows. -/
theorem exists_of_lt (first : Delivers bound outcome property) (fits : bound < maxCount) :
    ∃ value, outcome = .ok value ∧ property value := by
  rcases first with returned | ⟨large, _⟩
  · exact returned
  · exact absurd fits (Nat.not_lt.mpr large)

/-- Whatever is returned has the property. -/
theorem of_ok {value : α} (first : Delivers bound outcome property)
    (returned : outcome = .ok value) : property value := by
  rcases first with ⟨other, same, holds⟩ | ⟨_, overflows⟩
  · rw [same] at returned
    exact Except.ok.inj returned ▸ holds
  · rw [overflows] at returned
    cases returned

end Delivers

end ProgramSynthesis
