import ProgramSynthesis.Fault

/-!
# Masks

A mask marks some of the examples of a problem, one bit per example. Two masks can be
combined when they are over the same number of examples; anything else is a fault.
-/

namespace ProgramSynthesis

/-- One bit per example, in example order. -/
structure Mask where
  /-- The bits. -/
  bits : List Bool
deriving DecidableEq, Repr

namespace Mask

/-- No example is marked. -/
def empty (length : Nat) : Mask := ⟨List.replicate length false⟩

/-- Every example is marked. -/
def full (length : Nat) : Mask := ⟨List.replicate length true⟩

/-- The number of examples. -/
def length (mask : Mask) : Nat := mask.bits.length

/-- The number of marked examples. -/
def count (mask : Mask) : Nat := mask.bits.count true

/-- Whether there are no examples at all. -/
def isEmpty (mask : Mask) : Bool := mask.bits.isEmpty

/-- Whether every example is marked. -/
def isFull (mask : Mask) : Bool := mask.bits.all id

/-- The examples that are not marked. -/
def complement (mask : Mask) : Mask := ⟨mask.bits.map (!·)⟩

/-- Refuse two masks over different numbers of examples. -/
def sameLength (left right : Mask) : Except Fault Unit :=
  if left.length = right.length then
    .ok ()
  else
    .error (.maskLengths left.length right.length)

/-- The number of examples marked in both masks. -/
def countWithin (mask within : Mask) : Except Fault Nat := do
  mask.sameLength within
  return (mask.bits.zipWith (· && ·) within.bits).count true

/-- The examples marked in at least one mask. -/
def union (left right : Mask) : Except Fault Mask := do
  left.sameLength right
  return ⟨left.bits.zipWith (· || ·) right.bits⟩

/-- The examples marked in at least one of several masks over `length` examples. -/
def unionAll (length : Nat) (masks : List Mask) : Except Fault Mask :=
  masks.foldlM union (empty length)

/-- The bits as text, `1` where an example is marked. -/
def text (mask : Mask) : String :=
  String.ofList (mask.bits.map fun bit => if bit then '1' else '0')

/-- No bit of the empty mask is set. -/
@[simp] theorem count_empty (length : Nat) : (empty length).count = 0 := by
  simp [empty, count, List.count_replicate]

/-- Every bit of the full mask is set. -/
@[simp] theorem count_full (length : Nat) : (full length).count = length := by
  simp [full, count]

/-- The full mask marks as many examples as there are. -/
@[simp] theorem length_full (length : Nat) : (full length).length = length := by
  simp [full, Mask.length]

/-- A count within a mask is defined exactly on masks of one length. -/
theorem countWithin_eq_ok_iff (mask within : Mask) (gain : Nat) :
    mask.countWithin within = .ok gain ↔
      mask.length = within.length ∧ (mask.bits.zipWith (· && ·) within.bits).count true = gain := by
  unfold countWithin sameLength
  by_cases same : mask.length = within.length
  · simp [same, bind, Except.bind, pure, Except.pure]
  · simp [same, bind, Except.bind]

/-- A union is defined exactly on masks of one length. -/
theorem union_eq_ok_iff (left right both : Mask) :
    left.union right = .ok both ↔
      left.length = right.length ∧ ⟨left.bits.zipWith (· || ·) right.bits⟩ = both := by
  unfold union sameLength
  by_cases same : left.length = right.length
  · simp [same, bind, Except.bind, pure, Except.pure]
  · simp [same, bind, Except.bind]

/-- One more mask is joined to the union of those before it. -/
theorem unionAll_append_singleton (length : Nat) (masks : List Mask) (mask : Mask) :
    unionAll length (masks ++ [mask]) = (do (← unionAll length masks).union mask) := by
  simp [unionAll, List.foldlM_append]

/-- A mask joined to a union marks those of the unmarked examples that it marks, and leaves
the others unmarked. -/
theorem count_complement_union {left right both : Mask} (joined : left.union right = .ok both) :
    both.complement.count + (right.bits.zipWith (· && ·) left.complement.bits).count true =
      left.complement.count := by
  obtain ⟨same, rfl⟩ := (union_eq_ok_iff left right both).mp joined
  obtain ⟨bits⟩ := left
  obtain ⟨added⟩ := right
  clear joined
  simp only [length, complement, count] at same ⊢
  induction bits generalizing added with
  | nil => simp
  | cons bit bits ih =>
    cases added with
    | nil => simp at same
    | cons mark added =>
      have tail := ih added (by simpa using same)
      cases bit <;> cases mark <;> simp at tail ⊢ <;> omega

end Mask

end ProgramSynthesis
