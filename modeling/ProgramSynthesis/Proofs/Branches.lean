import ProgramSynthesis.Proofs.Nesting

/-!
# Branches of a merged piece

On every example a merged piece takes one of the two pieces it is made of: the first where its
mask marks the example, the second elsewhere. It evaluates like that branch, faults included, and
its mask marks the example exactly when the mask of that branch does. Whatever the masks say of
the programs, and however wrong the programs are, the mask of the merged piece therefore says as
much of its program as the two masks say of theirs.
-/

namespace ProgramSynthesis

namespace Piece

variable {examples : List Example} {piece first second : Piece} {index : Nat} {case : Example}

/-- The piece that is taken on an example when two are merged. -/
def branch (first second : Piece) (index : Nat) : Piece :=
  if first.mask.marks index then first else second

/-- Whether a piece is right on every example that its mask marks. -/
def SoundOn (examples : List Example) (piece : Piece) : Prop :=
  ∀ index case, examples[index]? = some case → piece.mask.marks index = true →
    piece.program.eval case.input = .ok case.output

/-- Whether the mask of a piece marks exactly the examples on which the piece is right. -/
def ExactOn (examples : List Example) (piece : Piece) : Prop :=
  ∀ index case, examples[index]? = some case →
    (piece.mask.marks index = true ↔ piece.program.eval case.input = .ok case.output)

/-- A piece with the mask of its program is exact. -/
theorem exactOn_of_mask (masked : piece.program.mask examples = .ok piece.mask) :
    piece.ExactOn examples :=
  fun _ _ found => Expr.marks_iff_of_mask masked found

/-- An exact piece is sound. -/
theorem ExactOn.soundOn (exact : piece.ExactOn examples) : piece.SoundOn examples :=
  fun index case found marked => (exact index case found).mp marked

/-- The branch that is taken is one of the two pieces. -/
theorem branch_cases {P : Piece → Prop} (left : P first) (right : P second) (index : Nat) :
    P (first.branch second index) := by
  rw [branch]
  split
  · exact left
  · exact right

/-- The branch that is taken marks an example when one of the two pieces does. -/
theorem marks_branch (first second : Piece) (index : Nat) :
    (first.branch second index).mask.marks index =
      (first.mask.marks index || second.mask.marks index) := by
  cases marked : first.mask.marks index with
  | true => simp [branch, marked]
  | false => simp [branch, marked]

end Piece

section

variable {config : SearchConfig} {grammar : Grammar} {examples : List Example}
  {first second piece : Piece} {counters later : Counters} {index : Nat} {case : Example}

/-- A merged piece evaluates like the branch that is taken. -/
theorem eval_of_unify (counted : first.mask.length = examples.length)
    (unified : unify config grammar examples first second counters = .ok ⟨some piece, later⟩)
    (found : examples[index]? = some case) :
    piece.program.eval case.input = (first.branch second index).program.eval case.input := by
  obtain ⟨condition, known, _, merged⟩ := conditionFor_of_unify unified
  have chosen : condition.eval case.input = .ok (.bool (first.mask.marks index)) :=
    eval_of_separates counted (isCorrect_of_conditionFor known) found
  rw [merged, Expr.eval, chosen, ok_bind, Piece.branch]
  cases first.mask.marks index with
  | true => rfl
  | false => rfl

/-- A merged piece marks an example when the branch that is taken does. -/
theorem marks_of_unify
    (unified : unify config grammar examples first second counters = .ok ⟨some piece, later⟩)
    (index : Nat) :
    piece.mask.marks index = (first.branch second index).mask.marks index := by
  obtain ⟨_, _, joined, _⟩ := conditionFor_of_unify unified
  rw [Mask.marks_of_union joined, Piece.marks_branch]

/-- Sound pieces are merged into a sound one. -/
theorem Piece.SoundOn.unify (left : first.SoundOn examples) (right : second.SoundOn examples)
    (counted : first.mask.length = examples.length)
    (unified : unify config grammar examples first second counters = .ok ⟨some piece, later⟩) :
    piece.SoundOn examples := by
  intro index case found marked
  have taken : (first.branch second index).SoundOn examples := branch_cases left right index
  rw [marks_of_unify unified] at marked
  rw [eval_of_unify counted unified found]
  exact taken index case found marked

/-- Exact pieces are merged into an exact one. -/
theorem Piece.ExactOn.unify (left : first.ExactOn examples) (right : second.ExactOn examples)
    (counted : first.mask.length = examples.length)
    (unified : unify config grammar examples first second counters = .ok ⟨some piece, later⟩) :
    piece.ExactOn examples := by
  intro index case found
  have taken : (first.branch second index).ExactOn examples := branch_cases left right index
  rw [marks_of_unify unified, eval_of_unify counted unified found]
  exact taken index case found

/-- Where the programs of two pieces have the masks that the pieces hold, so has the program of the
merged piece. -/
theorem mask_of_unify (left : first.program.mask examples = .ok first.mask)
    (right : second.program.mask examples = .ok second.mask)
    (unified : unify config grammar examples first second counters = .ok ⟨some piece, later⟩) :
    piece.program.mask examples = .ok piece.mask := by
  obtain ⟨condition, known, joined, merged⟩ := conditionFor_of_unify unified
  rw [merged]
  exact mask_ite_of_separates (isCorrect_of_conditionFor known) left right joined

/-- A merged piece takes the right branch. Whatever two pieces are merged, with whatever condition
is found, the mask of the merged piece is the union of the two masks, and on every example its
program has the outcome of the first program where the first mask marks the example, and that of
the second program elsewhere, a value or a fault. Sound pieces are therefore merged into a sound
one and exact pieces into an exact one, and masks that the programs have on the examples are
merged into the mask that the merged program has. -/
theorem unify_takes_branch (config : SearchConfig) (grammar : Grammar) (examples : List Example)
    (first second piece : Piece) (counters later : Counters)
    (counted : first.mask.length = examples.length)
    (unified : unify config grammar examples first second counters = .ok ⟨some piece, later⟩) :
    first.mask.union second.mask = .ok piece.mask ∧
    piece.mask.length = examples.length ∧
    (∀ index, piece.mask.marks index =
      (first.mask.marks index || second.mask.marks index)) ∧
    (∀ index case, examples[index]? = some case →
      piece.program.eval case.input =
        if first.mask.marks index then first.program.eval case.input
        else second.program.eval case.input) ∧
    (first.SoundOn examples → second.SoundOn examples → piece.SoundOn examples) ∧
    (first.ExactOn examples → second.ExactOn examples → piece.ExactOn examples) ∧
    (first.program.mask examples = .ok first.mask → second.program.mask examples = .ok second.mask →
      piece.program.mask examples = .ok piece.mask) := by
  obtain ⟨_, _, joined, _⟩ := conditionFor_of_unify unified
  refine ⟨joined, (Mask.length_of_union joined).1.symm.trans counted, Mask.marks_of_union joined,
    fun index case found => ?_, fun left right => left.unify right counted unified,
    fun left right => left.unify right counted unified,
    fun left right => mask_of_unify left right unified⟩
  rw [eval_of_unify counted unified found, Piece.branch]
  split
  · rfl
  · rfl

end

namespace Smaller

/-- The piece that chooses between the variables is right on both examples. -/
theorem unify_takes_first_or_second :
    first.mask.length = examples.length ∧
    unify config grammar examples first second start =
      .ok ⟨some ⟨program, .full 2⟩, finish⟩ ∧
    first.mask.union second.mask = .ok (.full 2) ∧
    (Mask.full 2).length = examples.length ∧
    (∀ index, (Mask.full 2).marks index =
      (first.mask.marks index || second.mask.marks index)) ∧
    (∀ index case, examples[index]? = some case →
      program.eval case.input =
        if first.mask.marks index then first.program.eval case.input
        else second.program.eval case.input) ∧
    Piece.SoundOn examples ⟨program, .full 2⟩ ∧ Piece.ExactOn examples ⟨program, .full 2⟩ ∧
    program.mask examples = .ok (.full 2) := by
  have counted : first.mask.length = examples.length := by decide
  have left : first.program.mask examples = .ok first.mask := by decide
  have right : second.program.mask examples = .ok second.mask := by decide
  have exactLeft : first.ExactOn examples := Piece.exactOn_of_mask left
  have exactRight : second.ExactOn examples := Piece.exactOn_of_mask right
  obtain ⟨joined, sized, marks, evaluates, sound, exact, masked⟩ :=
    unify_takes_branch config grammar examples first second ⟨program, .full 2⟩ start finish counted
      unify_eq
  exact ⟨counted, unify_eq, joined, sized, marks, evaluates,
    sound exactLeft.soundOn exactRight.soundOn, exact exactLeft exactRight, masked left right⟩

end Smaller

end ProgramSynthesis
