import ProgramSynthesis.Proofs.Levels
import ProgramSynthesis.Proofs.Marks
import ProgramSynthesis.Search.Unification

/-!
# Merging two pieces

A branch condition asks for programs that tell the marked examples from the others, and what a
search returns for it does. Under such a condition the merged program behaves like the first
piece where its mask is set and like the second piece elsewhere, so the union of the masks
says exactly where it is correct.
-/

namespace ProgramSynthesis

variable {space : SearchSpace} {examples : List Example} {poolLimit : Nat}

/-- What checking a pool finds is correct. -/
theorem isCorrect_of_firstCorrect {pool : List Candidate} {counters later : Counters}
    {found : Candidate}
    (checked : firstCorrect examples pool counters = .ok ⟨some found, later⟩) :
    found.isCorrect examples = .ok true := by
  rcases firstCorrect_cases checked with ⟨same, _⟩ | ⟨_, _, _, _, same, _, correct⟩
  · cases same
  · cases same
    exact correct

/-- What a search over levels finds is correct. -/
theorem isCorrect_of_searchLevels {rounds : Nat} {pool : List Candidate}
    {counters later : Counters} {found : Candidate}
    (searched : searchLevels space examples poolLimit rounds pool counters =
      .ok ⟨some found, later⟩) : found.isCorrect examples = .ok true := by
  induction rounds generalizing pool counters with
  | zero => cases searched
  | succ rounds ih =>
    obtain ⟨⟨grown, leveled⟩, _, searched⟩ := bind_eq_ok_iff.mp searched
    cases grown with
    | none => cases searched
    | some grown =>
      obtain ⟨⟨result, counted⟩, checked, searched⟩ := bind_eq_ok_iff.mp searched
      cases result with
      | some candidate =>
        cases searched
        exact isCorrect_of_firstCorrect checked
      | none => exact ih searched

/-- What a search returns is correct on every example. -/
theorem isCorrect_of_enumerativeSearch {maxLevel : Nat} {report : Report Candidate}
    {found : Candidate}
    (searched : enumerativeSearch space examples maxLevel poolLimit = .ok report)
    (returned : report.result = some found) : found.isCorrect examples = .ok true := by
  obtain ⟨result, later⟩ := report
  obtain rfl : result = some found := returned
  exact isCorrect_of_searchLevels searched

/-- The example at a position asks for a condition that tells whether it is marked. -/
theorem getElem?_separatorExamples {mask : Mask} (counted : mask.length = examples.length)
    {index : Nat} {case : Example} (found : examples[index]? = some case) :
    (separatorExamples examples mask)[index]? =
      some (case.relabel (.bool (mask.marks index))) := by
  have inside : index < mask.length := counted ▸ (List.getElem?_eq_some_iff.mp found).1
  have bit := Mask.getElem?_bits_iff.mpr ⟨inside, rfl⟩
  rw [separatorExamples, List.getElem?_zipWith, found, bit]

/-- The examples of a branch condition have the inputs of the examples. -/
theorem exists_of_mem_separatorExamples {mask : Mask} {case : Example}
    (inside : case ∈ separatorExamples examples mask) :
    ∃ bit, ∃ original ∈ examples, case = original.relabel (.bool bit) := by
  obtain ⟨index, found⟩ := List.mem_iff_getElem?.mp inside
  obtain ⟨original, bit, here, _, rfl⟩ := List.getElem?_zipWith_eq_some.mp found
  exact ⟨bit, original, List.mem_of_getElem? here, rfl⟩

/-- A bit that occurs in a mask is asked of the condition on some example. -/
theorem exists_separatorExample {mask : Mask} (counted : mask.length = examples.length)
    {bit : Bool} (occurs : bit ∈ mask.bits) :
    ∃ case ∈ separatorExamples examples mask, case.output = .bool bit := by
  obtain ⟨index, found⟩ := List.mem_iff_getElem?.mp occurs
  obtain ⟨inside, marked⟩ := Mask.getElem?_bits_iff.mp found
  have within : index < examples.length := counted ▸ inside
  have labelled := getElem?_separatorExamples counted (List.getElem?_eq_getElem within)
  exact ⟨_, List.mem_of_getElem? labelled, congrArg Value.bool marked⟩

/-- A correct condition is true on the marked examples and false on the others. -/
theorem eval_of_separates {separator : Expr} {mask : Mask}
    (counted : mask.length = examples.length)
    (correct : separator.isCorrect (separatorExamples examples mask) = .ok true)
    {index : Nat} {case : Example} (found : examples[index]? = some case) :
    separator.eval case.input = .ok (.bool (mask.marks index)) := by
  have returned := mapM_eq_ok_iff.mp (Expr.outputs_of_isCorrect correct)
  rw [List.forall₂_map_right_iff, List.forall₂_same] at returned
  exact returned _ (List.mem_of_getElem? (getElem?_separatorExamples counted found))

/-- Under a condition that is true exactly where the first of two programs is correct, the
conditional is correct exactly where one of the two is. -/
theorem mask_ite_of_separates {separator first second : Expr} {left right both : Mask}
    (correct : separator.isCorrect (separatorExamples examples left) = .ok true)
    (firstMasked : first.mask examples = .ok left)
    (secondMasked : second.mask examples = .ok right) (joined : left.union right = .ok both) :
    (Expr.ite separator first second).mask examples = .ok both := by
  have counted : left.length = examples.length := Expr.length_of_mask firstMasked
  rw [Expr.mask_eq_ok_iff_marks]
  refine ⟨(Mask.length_of_union joined).1.symm.trans counted, fun index case found => ?_⟩
  have chosen := eval_of_separates counted correct found
  rw [Expr.eval, chosen, ok_bind, Mask.marks_of_union joined]
  cases marked : left.marks index with
  | true =>
    have right := (Expr.marks_iff_of_mask firstMasked found).mp marked
    exact ⟨case.output, right, by simp⟩
  | false =>
    obtain ⟨_, each⟩ := Expr.mask_eq_ok_iff_marks.mp secondMasked
    obtain ⟨value, evaluated, mark⟩ := each index case found
    exact ⟨value, evaluated, by rw [Bool.false_or, mark]⟩

/-- A finished merge has searched for a condition on the marked examples, counted that search,
and made a conditional of the pieces if it found one. -/
theorem exists_search_of_unify {config : SearchConfig} {grammar : Grammar} {first second : Piece}
    {result : Option Piece} {counters later : Counters}
    (unified : unify config grammar examples first second counters = .ok ⟨result, later⟩) :
    ∃ found recorded,
      enumerativeSearch (config.separatorSpace grammar) (separatorExamples examples first.mask)
        config.maxLevel config.poolLimit = .ok found ∧
      counters.recordSeparator = .ok recorded ∧ recorded.absorb found.counters = .ok later ∧
      ((found.result = none ∧ result = none) ∨ ∃ separator condition both,
        found.result = some separator ∧ separator.compile = .ok condition ∧
        first.mask.union second.mask = .ok both ∧
        result = some ⟨.ite condition first.program second.program, both⟩) := by
  obtain ⟨found, searched, unified⟩ := bind_eq_ok_iff.mp unified
  obtain ⟨recorded, counted, unified⟩ := bind_eq_ok_iff.mp unified
  obtain ⟨absorbed, summed, unified⟩ := bind_eq_ok_iff.mp unified
  refine ⟨found, recorded, searched, counted, ?_⟩
  cases outcome : found.result with
  | none =>
    rw [outcome] at unified
    cases unified
    exact ⟨summed, .inl ⟨rfl, rfl⟩⟩
  | some separator =>
    rw [outcome] at unified
    obtain ⟨both, joined, unified⟩ := bind_eq_ok_iff.mp unified
    obtain ⟨condition, compiled, unified⟩ := bind_eq_ok_iff.mp unified
    cases unified
    exact ⟨summed, .inr ⟨separator, condition, both, rfl, compiled, joined, rfl⟩⟩

/-- The condition that a search finds for the marked examples. -/
def conditionFor (config : SearchConfig) (grammar : Grammar) (examples : List Example)
    (mask : Mask) : Except Fault (Option Expr) := do
  let found ← enumerativeSearch (config.separatorSpace grammar) (separatorExamples examples mask)
    config.maxLevel config.poolLimit
  match found.result with
  | none => return none
  | some separator => return some (← separator.compile)

/-- A condition that is found comes from a search whose answer it is. -/
theorem exists_search_of_conditionFor {config : SearchConfig} {grammar : Grammar} {mask : Mask}
    {condition : Expr}
    (known : conditionFor config grammar examples mask = .ok (some condition)) :
    ∃ found separator,
      enumerativeSearch (config.separatorSpace grammar) (separatorExamples examples mask)
        config.maxLevel config.poolLimit = .ok found ∧
      found.result = some separator ∧ separator.compile = .ok condition := by
  obtain ⟨found, searched, known⟩ := bind_eq_ok_iff.mp known
  cases outcome : found.result with
  | none =>
    rw [outcome] at known
    cases known
  | some separator =>
    rw [outcome] at known
    obtain ⟨program, compiled, known⟩ := bind_eq_ok_iff.mp known
    cases known
    exact ⟨found, separator, searched, outcome, compiled⟩

/-- A condition that is found tells the marked examples from the others. -/
theorem isCorrect_of_conditionFor {config : SearchConfig} {grammar : Grammar} {mask : Mask}
    {condition : Expr}
    (known : conditionFor config grammar examples mask = .ok (some condition)) :
    condition.isCorrect (separatorExamples examples mask) = .ok true := by
  obtain ⟨found, separator, searched, outcome, compiled⟩ := exists_search_of_conditionFor known
  have correct := isCorrect_of_enumerativeSearch searched outcome
  rwa [Candidate.isCorrect, compiled, ok_bind] at correct

/-- Two pieces that are merged become a conditional under the condition found for the first,
with the union of their masks. -/
theorem conditionFor_of_unify {config : SearchConfig} {grammar : Grammar}
    {first second merged : Piece} {counters later : Counters}
    (unified : unify config grammar examples first second counters = .ok ⟨some merged, later⟩) :
    ∃ condition, conditionFor config grammar examples first.mask = .ok (some condition) ∧
      first.mask.union second.mask = .ok merged.mask ∧
      merged.program = .ite condition first.program second.program := by
  obtain ⟨found, recorded, searched, _, _, ⟨_, failed⟩ | ⟨separator, condition, both, outcome,
    compiled, joined, merges⟩⟩ := exists_search_of_unify unified
  · cases failed
  · cases merges
    refine ⟨condition, ?_, joined, rfl⟩
    rw [conditionFor, searched, ok_bind, outcome]
    simp only [compiled, ok_bind, pure_eq_ok]

end ProgramSynthesis
