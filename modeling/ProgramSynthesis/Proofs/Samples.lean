import Mathlib.Algebra.Order.Group.Unbundled.Abs
import Mathlib.Algebra.Order.Ring.Abs
import ProgramSynthesis.Demo
import ProgramSynthesis.Proofs.UniformDraws
import ProgramSynthesis.Proofs.Validation

/-!
# Samples are valid problems

Every drawn input binds exactly the listed names, each once and to a value between the bounds,
however often a name is listed and however many words a draw skips. A sample is drawn example by
example from one stream, so a sample is where every longer one from that stream starts. With
distinct names and a terminal, the sampled examples of a reference that returns on all such inputs
make up a problem; the references of the demonstrations do.
-/

namespace ProgramSynthesis

/-- Whether an input binds exactly some names to values between two bounds; like every input, it
binds each of them once. -/
structure Env.Spans (input : Env) (names : List String) (low high : Int64) : Prop where
  /-- The bound names are the given ones. -/
  mem_names_iff : ∀ name, name ∈ input.names ↔ name ∈ names
  /-- The values are between the bounds. -/
  within : ∀ binding ∈ input.bindings, low ≤ binding.2 ∧ binding.2 ≤ high

/-- Whether an example is an input of a sample with the label of a reference. -/
structure Example.Sampled (case : Example) (names : List String) (low high : Int64)
    (reference : Env → Except Fault Value) : Prop where
  /-- The input is one that can be drawn. -/
  spans : case.input.Spans names low high
  /-- The output is what the reference returns for it. -/
  labelled : reference case.input = .ok case.output

variable {names listed : List String} {low high : Int64} {reference : Env → Except Fault Value}
  {input : Env} {made examples : List Example}

namespace Env

namespace Spans

/-- Nothing is bound at first. -/
theorem empty (low high : Int64) : Env.empty.Spans [] low high :=
  ⟨fun _ => Iff.rfl, List.forall_mem_nil _⟩

/-- A value between the bounds is bound to one more name, or to a name again. -/
theorem insert {value : Int64} (spans : input.Spans names low high)
    (between : low ≤ value ∧ value ≤ high) (name : String) :
    (input.insert name value).Spans (names ++ [name]) low high where
  mem_names_iff other := by
    rw [mem_names_insert_iff, spans.mem_names_iff, List.mem_append, List.mem_singleton]
  within binding inside := by
    rcases mem_bindings_insert_iff.mp inside with ⟨before, _⟩ | rfl
    · exact spans.within binding before
    · exact between

/-- What is read from a spanning input is between the bounds, if a missing value counts as one that
is. -/
theorem getD_within (spans : input.Spans names low high) {missing : Int64}
    (between : low ≤ missing ∧ missing ≤ high) (name : String) :
    low ≤ (input.get? name).getD missing ∧ (input.get? name).getD missing ≤ high := by
  cases found : input.bindings.find? (fun binding => binding.1 = name) with
  | none =>
    rw [get?, found]
    exact between
  | some binding =>
    rw [get?, found]
    exact spans.within binding (List.mem_of_find?_eq_some found)

end Spans

end Env

section

variable (stream : WordStream)

/-- The names of a list are drawn in turn, each taking one word besides those that are skipped. -/
theorem exists_drawInput (names : List String) (ordered : low ≤ high)
    (spans : input.Spans listed low high) (position : Nat) : ∃ drawn next,
      drawInput stream low high names input position = .ok (drawn, next) ∧
      drawn.Spans (listed ++ names) low high ∧
      position + names.length ≤ next ∧ next ≤ max position stream.length + names.length := by
  induction names generalizing listed input position with
  | nil =>
    refine ⟨input, position, rfl, ?_, Nat.le_refl _, Nat.le_max_left _ _⟩
    rw [List.append_nil]
    exact spans
  | cons name names ih =>
    obtain ⟨value, middle, drew, between, after, before⟩ := stream.exists_uniform ordered position
    obtain ⟨drawn, next, rest, covers, least, most⟩ := ih (spans.insert between name) middle
    refine ⟨drawn, next, ?_, ?_, ?_, ?_⟩
    · rw [drawInput, drew, ok_bind]
      exact rest
    · rw [List.append_assoc, List.singleton_append] at covers
      exact covers
    · rw [List.length_cons]
      omega
    · rw [List.length_cons]
      omega

/-- A sample is drawn to its end when the reference returns on every input that can be drawn; every
name of every example takes one word besides those that are skipped. -/
theorem exists_sampleFrom (ordered : low ≤ high)
    (total : ∀ input : Env, input.Spans names low high → ∃ value, reference input = .ok value)
    (made : List Example) (count position : Nat) : ∃ drawn used,
      sampleFrom stream names low high reference made count position =
        .ok (made.reverse ++ drawn, used) ∧
      drawn.length = count ∧ (∀ case ∈ drawn, case.Sampled names low high reference) ∧
      position + count * names.length ≤ used ∧
      used ≤ max position stream.length + count * names.length := by
  induction count generalizing made position with
  | zero =>
    refine ⟨[], position, ?_, rfl, List.forall_mem_nil _, by omega, by omega⟩
    rw [sampleFrom, List.append_nil]
  | succ count ih =>
    obtain ⟨input, middle, drew, spans, after, before⟩ :=
      exists_drawInput stream names ordered (Env.Spans.empty low high) position
    rw [List.nil_append] at spans
    obtain ⟨output, labelled⟩ := total input spans
    obtain ⟨drawn, used, rest, counted, sampled, least, most⟩ := ih (⟨input, output⟩ :: made) middle
    refine ⟨⟨input, output⟩ :: drawn, used, ?_, congrArg (· + 1) counted,
      List.forall_mem_cons.mpr ⟨⟨spans, labelled⟩, sampled⟩, ?_, ?_⟩
    · rw [sampleFrom, drew, ok_bind]
      simp only [labelled, ok_bind, rest, List.reverse_cons, List.append_assoc,
        List.singleton_append]
    · rw [Nat.add_one_mul]
      omega
    · rw [Nat.add_one_mul]
      omega

/-- A sample goes on from where a smaller one from its stream ends. -/
theorem sampleFrom_add (made : List Example) (fewer more position : Nat) :
    sampleFrom stream names low high reference made (fewer + more) position =
      sampleFrom stream names low high reference made fewer position >>= fun part =>
        sampleFrom stream names low high reference part.1.reverse more part.2 := by
  induction fewer generalizing made position with
  | zero =>
    have none : sampleFrom stream names low high reference made 0 position =
      .ok (made.reverse, position) := rfl
    rw [Nat.zero_add, none, ok_bind, List.reverse_reverse]
  | succ fewer ih =>
    rw [Nat.succ_add, sampleFrom, sampleFrom]
    simp only [ih, bind_assoc]

/-- The examples of a smaller sample are the first ones of a larger sample from the same stream. -/
theorem exists_sampleExamples_take {count used fewer : Nat} (ordered : low ≤ high)
    (total : ∀ input : Env, input.Spans names low high → ∃ value, reference input = .ok value)
    (drawn : sampleExamples stream names count low high reference = .ok (examples, used))
    (less : fewer ≤ count) :
    ∃ spent ≤ used, sampleExamples stream names fewer low high reference =
      .ok (examples.take fewer, spent) := by
  obtain ⟨part, spent, smaller, rfl, _⟩ :=
    exists_sampleFrom stream ordered total [] fewer 0
  obtain ⟨rest, later, further, _, _, least, _⟩ :=
    exists_sampleFrom stream ordered total part.reverse (count - part.length) spent
  rw [List.reverse_nil, List.nil_append] at smaller
  rw [List.reverse_reverse] at further
  have joined : sampleExamples stream names count low high reference =
      .ok (part ++ rest, later) := by
    rw [sampleExamples, ← Nat.add_sub_cancel' less, sampleFrom_add, smaller, ok_bind]
    exact further
  rw [drawn] at joined
  cases joined
  refine ⟨spent, by omega, ?_⟩
  rw [List.take_left]
  exact smaller

/-- Sampled examples make up a problem if there are some, the names are distinct and there is a
terminal. -/
theorem exists_validate_of_sampled {count : Nat} {constants : List Int64}
    (length : examples.length = count)
    (sampled : ∀ case ∈ examples, case.Sampled names low high reference)
    (distinct : names.Nodup) (positive : 0 < count) (terminals : ¬(names = [] ∧ constants = [])) :
    ∃ problem, Problem.validate names constants examples = .ok problem := by
  have nonempty : examples ≠ [] := by
    rw [← List.length_pos_iff, length]
    exact positive
  exact Problem.exists_validate nonempty terminals distinct fun case inside =>
    (sampled case inside).spans.mem_names_iff

end

/-- An exact result within 64 bits is returned. -/
theorem exists_checkedInt (operation : Arithmetic) (exact : Int) (least : -2 ^ 63 ≤ exact)
    (greatest : exact < 2 ^ 63) : ∃ value, checkedInt operation exact = .ok value := by
  have fits : int64? exact = some (.ofInt exact) := by
    rw [int64?, Int64.toInt_minValue, Int64.toInt_maxValue, if_pos ⟨least, by omega⟩]
  exact ⟨.ofInt exact, by rw [checkedInt, fits]⟩

namespace Demo

/-- No reference overflows on values that can be drawn, and every reference returns an integer. -/
theorem exists_reference (demo : Demo) (spans : input.Spans names sampleLow sampleHigh) :
    ∃ value, demo.reference input = .ok (.int value) := by
  have bounded : ∀ name, -20 ≤ ((input.get? name).getD 0).toInt ∧
      ((input.get? name).getD 0).toInt ≤ 20 := by
    intro name
    obtain ⟨least, greatest⟩ := spans.getD_within (by decide : sampleLow ≤ 0 ∧ 0 ≤ sampleHigh) name
    exact ⟨Int64.le_iff_toInt_le.mp least, Int64.le_iff_toInt_le.mp greatest⟩
  have product : ∀ left right, -400 ≤ ((input.get? left).getD 0).toInt *
      ((input.get? right).getD 0).toInt ∧
      ((input.get? left).getD 0).toInt * ((input.get? right).getD 0).toInt ≤ 400 := by
    intro left right
    rw [← abs_le, abs_mul]
    exact mul_le_mul (abs_le.mpr (bounded left)) (abs_le.mpr (bounded right)) (abs_nonneg _)
      (by decide)
  cases demo with
  | min => exact ⟨_, rfl⟩
  | sumOrNegate =>
    have x := bounded "x"
    have y := bounded "y"
    obtain ⟨sum, added⟩ := exists_checkedInt .add
      (((input.get? "x").getD 0).toInt + ((input.get? "y").getD 0).toInt) (by omega) (by omega)
    obtain ⟨opposite, negated⟩ := exists_checkedInt .negate
      (-((input.get? "y").getD 0).toInt) (by omega) (by omega)
    simp only [reference]
    split
    · exact ⟨sum, by rw [added]; rfl⟩
    · exact ⟨opposite, by rw [negated]; rfl⟩
  | nested =>
    have first := product "a" "c"
    have second := product "b" "c"
    obtain ⟨scaled, multiplied⟩ := exists_checkedInt .multiply
      (((input.get? "a").getD 0).toInt * ((input.get? "c").getD 0).toInt)
      (by omega) (by omega)
    obtain ⟨other, multiplied'⟩ := exists_checkedInt .multiply
      (((input.get? "b").getD 0).toInt * ((input.get? "c").getD 0).toInt)
      (by omega) (by omega)
    simp only [reference]
    split
    · split
      · exact ⟨scaled, by rw [multiplied]; rfl⟩
      · exact ⟨0, rfl⟩
    · exact ⟨other, by rw [multiplied']; rfl⟩

end Demo

/-- Samples are valid problems. Between any two bounds, for any names, any stream and any
reference that returns on inputs that can be drawn, a sample of every size is drawn to its end,
and it takes no more words than it has values to draw besides the words of the stream. Each
example binds exactly the listed names to values between the bounds and has the label of its
input. The smaller samples from the stream are where this one starts. If the names are distinct
and there is a terminal, a sample of at least one example makes up a problem. No reference of a
demonstration overflows on values between its bounds, so every demonstration with a sample of at
least one example is a problem. -/
theorem samples_are_valid_problems (stream : WordStream) :
    (∀ (names : List String) (low high : Int64) (reference : Env → Except Fault Value)
      (count : Nat), low ≤ high →
      (∀ input : Env, input.Spans names low high → ∃ value, reference input = .ok value) →
      ∃ examples used,
        sampleExamples stream names count low high reference = .ok (examples, used) ∧
        examples.length = count ∧
        (∀ case ∈ examples, case.Sampled names low high reference) ∧
        (count * names.length ≤ used ∧ used ≤ stream.length + count * names.length) ∧
        (∀ fewer ≤ count, ∃ spent ≤ used,
          sampleExamples stream names fewer low high reference =
            .ok (examples.take fewer, spent)) ∧
        ∀ constants, names.Nodup → 0 < count → ¬(names = [] ∧ constants = []) →
          ∃ problem, Problem.validate names constants examples = .ok problem) ∧
    (∀ (demo : Demo) (names : List String) (input : Env),
      input.Spans names Demo.sampleLow Demo.sampleHigh →
      ∃ value, demo.reference input = .ok (.int value)) ∧
    ∀ (demo : Demo) (count : Nat), 0 < count → ∃ examples problem,
      demo.sampledExamples stream count = .ok examples ∧ examples.length = count ∧
      Problem.validate demo.names demo.constants examples = .ok problem := by
  have references : ∀ (demo : Demo) (names : List String) (input : Env),
      input.Spans names Demo.sampleLow Demo.sampleHigh →
      ∃ value, demo.reference input = .ok (.int value) :=
    fun demo names input spans => demo.exists_reference spans
  refine ⟨?_, references, ?_⟩
  · intro names low high reference count ordered total
    obtain ⟨examples, used, drawn, length, sampled, least, most⟩ :=
      exists_sampleFrom stream ordered total [] count 0
    refine ⟨examples, used, drawn, length, sampled, by omega, ?_, ?_⟩
    · exact fun fewer less => exists_sampleExamples_take stream ordered total drawn less
    · intro constants distinct positive terminals
      exact exists_validate_of_sampled length sampled distinct positive terminals
  · intro demo count positive
    have total : ∀ input : Env, input.Spans demo.names Demo.sampleLow Demo.sampleHigh →
        ∃ value, demo.reference input = .ok value := by
      intro input spans
      obtain ⟨value, returned⟩ := references demo demo.names input spans
      exact ⟨.int value, returned⟩
    obtain ⟨examples, used, drawn, length, sampled, _⟩ :=
      exists_sampleFrom stream (by decide) total [] count 0
    have distinct : demo.names.Nodup := by cases demo <;> decide
    have terminals : ¬(demo.names = [] ∧ demo.constants = []) := by cases demo <;> decide
    obtain ⟨problem, valid⟩ :=
      exists_validate_of_sampled length sampled distinct positive terminals
    refine ⟨examples, problem, ?_, length, valid⟩
    have all : sampleExamples stream demo.names count Demo.sampleLow Demo.sampleHigh
      demo.reference = .ok (examples, used) := drawn
    rw [Demo.sampledExamples, all, ok_bind]
    rfl

/-- Three words, the first of which is not accepted for a range of three integers. -/
def rejectingStream : WordStream := .ofList [0xffffffffffffffff, 0x8000000000000000, 5]

/-- The label of an input is its value of `x`. -/
def labelByX (input : Env) : Except Fault Value := .ok (.int ((input.get? "x").getD 0))

/-- Bounds at which the product of two drawn values is the least. -/
def extremeInput : Env := .ofList [("a", 20), ("b", -20), ("c", 20)]

/-- Two examples from the three words and the zeros behind them, the extreme input, and a sample of
the demonstration with nested conditions. -/
theorem samples_of_rejectingStream :
    ((-1 : Int64) ≤ 1 ∧ ∃ examples used,
      sampleExamples rejectingStream ["x", "y"] 2 (-1) 1 labelByX = .ok (examples, used) ∧
      examples.length = 2 ∧ (∀ case ∈ examples, case.Sampled ["x", "y"] (-1) 1 labelByX) ∧
      (4 ≤ used ∧ used ≤ 7) ∧
      (∃ spent ≤ used, sampleExamples rejectingStream ["x", "y"] 1 (-1) 1 labelByX =
        .ok (examples.take 1, spent)) ∧
      ∃ problem, Problem.validate ["x", "y"] [] examples = .ok problem) ∧
    (extremeInput.Spans ["a", "b", "c"] Demo.sampleLow Demo.sampleHigh ∧
      ∃ value, Demo.nested.reference extremeInput = .ok (.int value)) ∧
    0 < 3 ∧ ∃ examples problem,
      Demo.nested.sampledExamples rejectingStream 3 = .ok examples ∧ examples.length = 3 ∧
      Problem.validate Demo.nested.names Demo.nested.constants examples = .ok problem := by
  obtain ⟨samples, references, demos⟩ := samples_are_valid_problems rejectingStream
  have ordered : (-1 : Int64) ≤ 1 := by decide
  obtain ⟨examples, used, drawn, length, sampled, words, smaller, valid⟩ :=
    samples ["x", "y"] (-1) 1 labelByX 2 ordered fun input _ => ⟨_, rfl⟩
  have spans : extremeInput.Spans ["a", "b", "c"] Demo.sampleLow Demo.sampleHigh :=
    (((Env.Spans.empty _ _).insert (by decide) "a").insert (by decide) "b").insert (by decide) "c"
  exact ⟨⟨ordered, examples, used, drawn, length, sampled, words, smaller 1 (by decide),
    valid [] (by decide) (by decide) (by decide)⟩, ⟨spans, references .nested _ _ spans⟩,
    by decide, demos .nested 3 (by decide)⟩

end ProgramSynthesis
