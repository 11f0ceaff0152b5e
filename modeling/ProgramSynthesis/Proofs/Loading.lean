import Mathlib.Data.List.Induction
import Mathlib.Data.Nat.Digits.Defs
import ProgramSynthesis.Example.Record
import ProgramSynthesis.Proofs.Fallible
import ProgramSynthesis.Proofs.KeyOrder

/-!
# Loading examples

What a file of examples holds, and which error is reported when it holds something else, stated
apart from the pass that reads it. The pass visits the output among the inputs, in the order of
the keys, so of several unacceptable fields the one of the least key is reported, and a missing
output only when every field is acceptable. What has been read after some fields is an invariant
of the pass.
-/

namespace ProgramSynthesis

/-- The number that the whole digits of a numeral write, in base ten. -/
def Numeral.magnitude (numeral : Numeral) : Nat :=
  Nat.ofDigits 10 numeral.whole.reverse

/-- Whether a numeral writes a machine integer: it has neither fraction nor exponent, is not
minus zero, and its sign and digits write the integer. -/
structure Numeral.Writes (numeral : Numeral) (number : Int64) : Prop where
  /-- There is no fraction. -/
  fraction : numeral.fraction = none
  /-- There is no exponent. -/
  exponent : numeral.exponent = none
  /-- Zero has no minus sign. -/
  notMinusZero : numeral.negative = true → numeral.magnitude ≠ 0
  /-- The sign and the digits write the integer. -/
  signed : number.toInt =
    if numeral.negative then -(numeral.magnitude : Int) else numeral.magnitude

/-- Whether a value is a machine integer. -/
def JsonValue.Writes (value : JsonValue) (number : Int64) : Prop :=
  ∃ numeral, value = .number numeral ∧ numeral.Writes number

/-- Whether a value is an output: a truth value or a machine integer. -/
inductive JsonValue.WritesOutput : JsonValue → Value → Prop where
  /-- A truth value. -/
  | bool (flag : Bool) : WritesOutput (.bool flag) (.bool flag)
  /-- A machine integer. -/
  | int {value : JsonValue} {number : Int64} (writes : value.Writes number) :
    WritesOutput value (.int number)

namespace Example

/-- Whether a field may hold a value: an integer, or under the output key also a truth value. -/
def Acceptable (key : String) (value : JsonValue) : Prop :=
  (∃ number, value.Writes number) ∨ key = outputKey ∧ ∃ flag, value = .bool flag

/-- Whether a value is a record: an object that has an output and otherwise integers. -/
def WellFormed (record : JsonValue) : Prop :=
  ∃ fields, record = .object fields ∧
    (∃ value output, (outputKey, value) ∈ fields ∧ value.WritesOutput output) ∧
    ∀ key value, (key, value) ∈ fields → key ≠ outputKey → ∃ number, value.Writes number

/-- Whether a record describes an example: the example expects the output of the record and binds
exactly its other fields. -/
def Describes (record : JsonValue) (loaded : Example) : Prop :=
  ∃ fields, record = .object fields ∧
    (∃ value, (outputKey, value) ∈ fields ∧ value.WritesOutput loaded.output) ∧
    ∀ name number, loaded.input.get? name = some number ↔
      name ≠ outputKey ∧ ∃ value, (name, value) ∈ fields ∧ value.Writes number

/-- The error that is reported for a record that is not well formed. -/
inductive RecordFault (index : Nat) : JsonValue → LoadError → Prop where
  /-- The record is no object. -/
  | notAnObject {record : JsonValue} (shape : ∀ fields, record ≠ .object fields) :
    RecordFault index record (.notAnObject index)
  /-- Some fields hold what they may not, this one under the least key. -/
  | badValue {fields : List (String × JsonValue)} {key : String} {value : JsonValue}
    (held : (key, value) ∈ fields) (bad : ¬Acceptable key value)
    (least : ∀ other otherValue, (other, otherValue) ∈ fields → ¬Acceptable other otherValue →
      utf8Bytes key ≤ utf8Bytes other) :
    RecordFault index (.object fields) (.badValue index key)
  /-- Every field holds what it may, and none is the output. -/
  | missingOutput {fields : List (String × JsonValue)}
    (acceptable : ∀ key value, (key, value) ∈ fields → Acceptable key value)
    (missing : ∀ value, (outputKey, value) ∉ fields) :
    RecordFault index (.object fields) (.missingOutput index)

/-- The error that is reported for a value that is no array of records. -/
inductive LoadFault : JsonValue → LoadError → Prop where
  /-- The value is no array. -/
  | notAnArray {value : JsonValue} (shape : ∀ records, value ≠ .array records) :
    LoadFault value .notAnArray
  /-- This record is the first that is not well formed. -/
  | record {before after : List JsonValue} {record : JsonValue} {error : LoadError}
    (wellFormed : ∀ earlier ∈ before, WellFormed earlier)
    (fault : RecordFault before.length record error) :
    LoadFault (.array (before ++ record :: after)) error

end Example

/-- Digits are read as a number of base ten. -/
theorem Numeral.value_whole (numeral : Numeral) : value 0 numeral.whole = numeral.magnitude := by
  unfold magnitude
  induction numeral.whole using List.reverseRecOn with
  | nil => rfl
  | append_singleton digits digit ih =>
    have last : value 0 (digits ++ [digit]) = 10 * value 0 digits + digit := by
      rw [value, List.foldl_append]
      rfl
    rw [last, ih, List.reverse_append, List.reverse_singleton, List.singleton_append,
      Nat.ofDigits_cons]
    exact Nat.add_comm _ _

/-- The integer that is read from a numeral is the one it writes. -/
theorem Numeral.int64?_eq_some_iff {numeral : Numeral} {number : Int64} :
    numeral.int64? = some number ↔ numeral.Writes number := by
  obtain ⟨negative, whole, fraction, exponent⟩ := numeral
  cases fraction with
  | some digits => exact ⟨nofun, fun writes => nomatch writes.fraction⟩
  | none =>
    cases exponent with
    | some power => exact ⟨nofun, fun writes => nomatch writes.exponent⟩
    | none =>
      have digits : value 0 whole = magnitude ⟨negative, whole, none, none⟩ :=
        value_whole ⟨negative, whole, none, none⟩
      simp only [int64?, digits]
      cases negative with
      | false =>
        rw [if_neg Bool.false_ne_true, ProgramSynthesis.int64?_eq_some_iff]
        exact ⟨fun signed => ⟨rfl, rfl, nofun, signed⟩, fun writes => writes.signed⟩
      | true =>
        rw [if_pos rfl]
        split
        · rename_i zero
          refine ⟨nofun, fun writes => ?_⟩
          exact absurd (Int.natCast_eq_zero.mp zero) (writes.notMinusZero rfl)
        · rename_i nonzero
          rw [ProgramSynthesis.int64?_eq_some_iff]
          refine ⟨fun signed => ⟨rfl, rfl, fun _ zero => ?_, signed⟩, fun writes => writes.signed⟩
          exact nonzero (Int.natCast_eq_zero.mpr zero)

namespace JsonValue

variable {value : JsonValue}

/-- The integer that is read from a value is the one it writes. -/
theorem int64?_eq_some_iff {number : Int64} : value.int64? = some number ↔ value.Writes number := by
  cases value with
  | number numeral =>
    refine Numeral.int64?_eq_some_iff.trans ⟨fun writes => ⟨numeral, rfl, writes⟩, ?_⟩
    rintro ⟨_, ⟨⟩, writes⟩
    exact writes
  | null | bool _ | text _ | array _ | object _ => exact ⟨nofun, fun ⟨_, same, _⟩ => nomatch same⟩

/-- No integer is read from a value that writes none. -/
theorem int64?_eq_none_iff : value.int64? = none ↔ ¬∃ number, value.Writes number := by
  simp only [Option.eq_none_iff_forall_ne_some, ne_eq, int64?_eq_some_iff, not_exists]

/-- A value writes at most one integer. -/
theorem Writes.unique {number other : Int64} (first : value.Writes number)
    (second : value.Writes other) : number = other :=
  Option.some.inj ((int64?_eq_some_iff.mpr first).symm.trans (int64?_eq_some_iff.mpr second))

/-- A value writes at most one output. -/
theorem WritesOutput.unique {output other : Value} (first : value.WritesOutput output)
    (second : value.WritesOutput other) : output = other := by
  cases first with
  | bool flag =>
    cases second with
    | bool => rfl
    | int writes => exact nomatch writes
  | int writes =>
    cases second with
    | bool => exact nomatch writes
    | int again => rw [writes.unique again]

end JsonValue

namespace Example

section

variable {key : String} {value : JsonValue} {input : Env} {output : Option Value}
  {fields read : List (String × JsonValue)}

/-- The output field may hold exactly the outputs. -/
theorem acceptable_outputKey_iff :
    Acceptable outputKey value ↔ ∃ output, value.WritesOutput output := by
  constructor
  · rintro (⟨number, writes⟩ | ⟨-, flag, rfl⟩)
    · exact ⟨.int number, .int writes⟩
    · exact ⟨.bool flag, .bool flag⟩
  · rintro ⟨output, writes⟩
    cases writes with
    | bool flag => exact .inr ⟨rfl, flag, rfl⟩
    | @int _ number writes => exact .inl ⟨number, writes⟩

/-- Any other field may hold exactly the integers. -/
theorem acceptable_iff_of_ne (isInput : key ≠ outputKey) :
    Acceptable key value ↔ ∃ number, value.Writes number :=
  or_iff_left fun isOutput => isInput isOutput.1

/-- What reading an acceptable field makes of the input and the output read before it. -/
inductive ReadsField (key : String) (value : JsonValue) (input : Env) (output : Option Value) :
    Env → Option Value → Prop where
  /-- The output is kept. -/
  | output {held : Value} (isOutput : key = outputKey) (writes : value.WritesOutput held) :
    ReadsField key value input output input (some held)
  /-- An input is bound. -/
  | input {number : Int64} (isInput : key ≠ outputKey) (writes : value.Writes number) :
    ReadsField key value input output (input.insert key number) output

/-- A pass reads its first field and goes on, or ends there because the field is not
acceptable. -/
theorem ofFields_cons_cases (index : Nat) (input : Env) (output : Option Value) (key : String)
    (value : JsonValue) (fields : List (String × JsonValue)) :
    (∃ nextInput nextOutput, ReadsField key value input output nextInput nextOutput ∧
      ofFields index input output ((key, value) :: fields) =
        ofFields index nextInput nextOutput fields) ∨
    ¬Acceptable key value ∧
      ofFields index input output ((key, value) :: fields) = .error (.badValue index key) := by
  by_cases isOutput : key = outputKey
  · subst isOutput
    by_cases acceptable : Acceptable outputKey value
    · obtain ⟨held, writes⟩ := acceptable_outputKey_iff.mp acceptable
      refine .inl ⟨input, some held, .output rfl writes, ?_⟩
      cases writes with
      | bool flag => rw [ofFields, if_pos rfl]
      | int writes =>
        have found := JsonValue.int64?_eq_some_iff.mpr writes
        obtain ⟨numeral, rfl, -⟩ := writes
        simp only [ofFields, if_pos, found]
    · refine .inr ⟨acceptable, ?_⟩
      have found : value.int64? = none :=
        JsonValue.int64?_eq_none_iff.mpr fun writes => acceptable (.inl writes)
      cases value with
      | bool flag => exact absurd (.inr ⟨rfl, flag, rfl⟩) acceptable
      | null | number _ | text _ | array _ | object _ => simp only [ofFields, if_pos, found]
  · by_cases acceptable : ∃ number, value.Writes number
    · obtain ⟨number, writes⟩ := acceptable
      refine .inl ⟨input.insert key number, output, .input isOutput writes, ?_⟩
      simp only [ofFields, if_neg isOutput, JsonValue.int64?_eq_some_iff.mpr writes]
    · refine .inr ⟨(acceptable_iff_of_ne isOutput).not.mpr acceptable, ?_⟩
      simp only [ofFields, if_neg isOutput, JsonValue.int64?_eq_none_iff.mpr acceptable]

/-- What has been read after some fields. -/
structure HasRead (read : List (String × JsonValue)) (input : Env) (output : Option Value) :
    Prop where
  /-- The fields are acceptable. -/
  acceptable : ∀ key value, (key, value) ∈ read → Acceptable key value
  /-- The input binds those that are not the output. -/
  input : ∀ name number, input.get? name = some number ↔
    name ≠ outputKey ∧ ∃ value, (name, value) ∈ read ∧ value.Writes number
  /-- The output is that of the output field. -/
  output : ∀ held, output = some held ↔
    ∃ value, (outputKey, value) ∈ read ∧ value.WritesOutput held

/-- Nothing has been read at first. -/
theorem HasRead.nil : HasRead [] .empty none where
  acceptable _ _ := nofun
  input _ _ := ⟨nofun, fun ⟨_, _, inside, _⟩ => nomatch inside⟩
  output _ := ⟨nofun, fun ⟨_, inside, _⟩ => nomatch inside⟩

/-- A field that is read is acceptable. -/
theorem ReadsField.acceptable {nextInput : Env} {nextOutput : Option Value}
    (reads : ReadsField key value input output nextInput nextOutput) : Acceptable key value := by
  cases reads with
  | output isOutput writes =>
    subst isOutput
    exact acceptable_outputKey_iff.mpr ⟨_, writes⟩
  | input _ writes => exact .inl ⟨_, writes⟩

/-- Reading a field of a new key adds what it holds. -/
theorem HasRead.append {nextInput : Env} {nextOutput : Option Value}
    (before : HasRead read input output)
    (reads : ReadsField key value input output nextInput nextOutput)
    (fresh : ∀ other, (key, other) ∉ read) :
    HasRead (read ++ [(key, value)]) nextInput nextOutput := by
  have held_of_ne : ∀ {name other}, name ≠ key →
      ((name, other) ∈ read ++ [(key, value)] ↔ (name, other) ∈ read) := by
    intro name other distinct
    simp [distinct]
  have held_key : ∀ {other}, (key, other) ∈ read ++ [(key, value)] ↔ other = value := by
    intro other
    simp [fresh other]
  have acceptable : ∀ name other, (name, other) ∈ read ++ [(key, value)] →
      Acceptable name other := by
    intro name other inside
    by_cases same : name = key
    · subst same
      rw [held_key.mp inside]
      exact reads.acceptable
    · exact before.acceptable name other ((held_of_ne same).mp inside)
  cases reads with
  | @output held isOutput writes =>
    subst isOutput
    refine ⟨acceptable, fun name number => ?_, fun other => ?_⟩
    · rw [before.input]
      exact and_congr_right fun distinct => by simp only [held_of_ne distinct]
    · simp only [held_key, exists_eq_left, Option.some.injEq]
      exact ⟨fun same => same ▸ writes, writes.unique⟩
  | @input number isInput writes =>
    refine ⟨acceptable, fun name other => ?_, fun held => ?_⟩
    · rw [Env.get?_insert]
      by_cases same : key = name
      · subst same
        simp only [if_pos, held_key, exists_eq_left, Option.some.injEq]
        exact ⟨fun same => ⟨isInput, same ▸ writes⟩, fun bound => writes.unique bound.2⟩
      · simp only [if_neg same, before.input, held_of_ne (Ne.symm same)]
    · simp only [before.output, held_of_ne (Ne.symm isInput)]

/-- A pass over fields whose keys ascend ends with all of them read, or with the error of the
record. The fields move one by one from those to come to those that have been read. -/
theorem ofFields_outcome (index : Nat) (before : HasRead read input output)
    (ascend : KeysAscend (read ++ fields)) :
    (∃ loaded, ofFields index input output fields = .ok loaded ∧
      HasRead (read ++ fields) loaded.input (some loaded.output)) ∨
    ∃ error, ofFields index input output fields = .error error ∧
      RecordFault index (.object (read ++ fields)) error := by
  induction fields generalizing read input output with
  | nil =>
    rw [List.append_nil]
    cases output with
    | some held => exact .inl ⟨⟨input, held⟩, rfl, before⟩
    | none =>
      refine .inr ⟨.missingOutput index, rfl, .missingOutput before.acceptable ?_⟩
      intro value inside
      obtain ⟨held, writes⟩ := acceptable_outputKey_iff.mp (before.acceptable _ _ inside)
      exact nomatch (before.output held).mpr ⟨value, inside, writes⟩
  | cons field fields ih =>
    obtain ⟨key, value⟩ := field
    obtain ⟨-, rest, later⟩ := List.pairwise_append.mp ascend
    obtain ⟨nextInput, nextOutput, reads, goesOn⟩ | ⟨bad, ends⟩ :=
      ofFields_cons_cases index input output key value fields
    · have fresh : ∀ other, (key, other) ∉ read := fun other inside =>
        List.lt_irrefl _ (later _ inside (key, value) List.mem_cons_self)
      rw [goesOn, List.append_cons]
      exact ih (before.append reads fresh) (List.append_cons .. ▸ ascend)
    · -- The fields before are acceptable, and the ones after have larger keys.
      refine .inr ⟨.badValue index key, ends, ?_⟩
      refine .badValue (List.mem_append_right _ List.mem_cons_self) bad ?_
      intro other otherValue inside otherBad
      obtain inside | inside := List.mem_append.mp inside
      · exact absurd (before.acceptable _ _ inside) otherBad
      · obtain same | inside := List.mem_cons.mp inside
        · cases same
          exact List.le_refl _
        · exact List.le_of_lt ((List.pairwise_cons.mp rest).1 _ inside)

end

section

variable {record : JsonValue} {records : List JsonValue} {index : Nat} {error other : LoadError}

/-- A record is read as the example it describes if it is well formed, and else its error is
reported. -/
theorem ofRecord_outcome (index : Nat) (ordered : record.Ascending) :
    (∃ loaded, ofRecord index record = .ok loaded ∧ WellFormed record ∧
      Describes record loaded) ∨
    ∃ error, ofRecord index record = .error error ∧ RecordFault index record error := by
  cases ordered with
  | null | bool | number | text | array =>
    exact .inr ⟨.notAnObject index, rfl, .notAnObject nofun⟩
  | @object fields keys _ =>
    refine (ofFields_outcome index .nil keys).imp_left ?_
    rintro ⟨loaded, returned, read⟩
    obtain ⟨value, inside, writes⟩ := (read.output loaded.output).mp rfl
    refine ⟨loaded, returned, ⟨fields, rfl, ⟨value, _, inside, writes⟩, ?_⟩,
      ⟨fields, rfl, ⟨value, inside, writes⟩, read.input⟩⟩
    intro key value held isInput
    exact (acceptable_iff_of_ne isInput).mp (read.acceptable key value held)

/-- A well formed record has no error. -/
theorem RecordFault.not_wellFormed (fault : RecordFault index record error)
    (ordered : record.Ascending) : ¬WellFormed record := by
  rintro ⟨fields, rfl, ⟨output, held, outputInside, writesOutput⟩, inputs⟩
  cases fault with
  | notAnObject shape => exact shape fields rfl
  | missingOutput _ missing => exact missing output outputInside
  | @badValue _ key value inside bad _ =>
    by_cases isOutput : key = outputKey
    · subst isOutput
      cases ordered with
      | object keys _ =>
        obtain rfl := KeysAscend.eq_of_mem keys inside outputInside
        exact bad (acceptable_outputKey_iff.mpr ⟨held, writesOutput⟩)
    · exact bad ((acceptable_iff_of_ne isOutput).mpr (inputs key value inside isOutput))

/-- A record has one error at most. -/
theorem RecordFault.unique (first : RecordFault index record error)
    (second : RecordFault index record other) : error = other := by
  cases first with
  | notAnObject shape =>
    cases second with
    | notAnObject => rfl
    | @badValue fields | @missingOutput fields => exact absurd rfl (shape fields)
  | badValue inside bad least =>
    cases second with
    | notAnObject shape => exact absurd rfl (shape _)
    | badValue otherInside otherBad otherLeast =>
      have below := least _ _ otherInside otherBad
      have above := otherLeast _ _ inside bad
      rw [utf8Bytes_injective (List.le_antisymm below above)]
    | missingOutput acceptable _ => exact absurd (acceptable _ _ inside) bad
  | missingOutput acceptable _ =>
    cases second with
    | notAnObject shape => exact absurd rfl (shape _)
    | badValue inside bad _ => exact absurd (acceptable _ _ inside) bad
    | missingOutput => rfl

/-- Records are read one by one as the examples they describe, up to the first that is not well
formed. -/
theorem mapM_ofRecord_outcome (start : Nat) (ordered : ∀ record ∈ records, record.Ascending) :
    (∃ examples,
      ((records.zipIdx start).mapM fun (record, index) => ofRecord index record) = .ok examples ∧
      (∀ record ∈ records, WellFormed record) ∧ List.Forall₂ Describes records examples) ∨
    ∃ before record after error, records = before ++ record :: after ∧
      (∀ earlier ∈ before, WellFormed earlier) ∧
      RecordFault (start + before.length) record error ∧
      ((records.zipIdx start).mapM fun (record, index) => ofRecord index record) =
        .error error := by
  induction records generalizing start with
  | nil => exact .inl ⟨[], rfl, List.forall_mem_nil _, .nil⟩
  | cons record records ih =>
    obtain ⟨first, rest⟩ := List.forall_mem_cons.mp ordered
    rw [List.zipIdx_cons, List.mapM_cons]
    obtain ⟨loaded, returned, wellFormed, describes⟩ | ⟨error, failed, fault⟩ :=
      ofRecord_outcome start first
    · simp only [returned, ok_bind]
      obtain ⟨examples, all, each, described⟩ |
        ⟨before, bad, after, error, rfl, each, fault, failed⟩ := ih (start + 1) rest
      · rw [all]
        exact .inl ⟨loaded :: examples, rfl, List.forall_mem_cons.mpr ⟨wellFormed, each⟩,
          .cons describes described⟩
      · rw [failed]
        refine .inr ⟨record :: before, bad, after, error, rfl,
          List.forall_mem_cons.mpr ⟨wellFormed, each⟩, ?_, rfl⟩
        rwa [List.length_cons, Nat.add_comm before.length, ← Nat.add_assoc]
    · simp only [failed]
      exact .inr ⟨[], record, records, error, rfl, List.forall_mem_nil _, fault, rfl⟩

/-- A value without error is an array of records, and one with an error is not. -/
theorem LoadFault.not_array {value : JsonValue} (fault : LoadFault value error)
    (ordered : value.Ascending) :
    ¬∃ records, value = .array records ∧ ∀ record ∈ records, WellFormed record := by
  rintro ⟨records, rfl, each⟩
  cases fault with
  | notAnArray shape => exact shape records rfl
  | record _ fault =>
    cases ordered with
    | array ordered =>
      have bad := fault.not_wellFormed (ordered _ (List.mem_append_right _ List.mem_cons_self))
      exact bad (each _ (List.mem_append_right _ List.mem_cons_self))

/-- A list is split at its first member without a property in one way. -/
theorem eq_of_append_cons_eq {α : Type} {property : α → Prop}
    {before before' after after' : List α} {member member' : α}
    (same : before ++ member :: after = before' ++ member' :: after')
    (each : ∀ earlier ∈ before, property earlier) (fails : ¬property member)
    (each' : ∀ earlier ∈ before', property earlier) (fails' : ¬property member') :
    before = before' ∧ member = member' := by
  rcases List.append_eq_append_iff.mp same with ⟨between, rfl, rest⟩ | ⟨between, rfl, rest⟩
  · cases between with
    | nil => exact ⟨(List.append_nil before).symm, (List.cons.inj rest).1⟩
    | cons first between =>
      have leads : member = first := (List.cons.inj rest).1
      exact absurd (each' member (by simp [leads])) fails
  · cases between with
    | nil => exact ⟨List.append_nil before', (List.cons.inj rest).1.symm⟩
    | cons first between =>
      have leads : member' = first := (List.cons.inj rest).1
      exact absurd (each member' (by simp [leads])) fails'

/-- A value has one error at most. -/
theorem LoadFault.unique {value : JsonValue} (first : LoadFault value error)
    (second : LoadFault value other) (ordered : value.Ascending) : error = other := by
  cases first with
  | notAnArray shape =>
    cases second with
    | notAnArray => rfl
    | record => exact absurd rfl (shape _)
  | @record before after record _ wellFormed fault =>
    generalize same : JsonValue.array (before ++ record :: after) = value at second ordered
    cases second with
    | notAnArray shape => exact absurd same.symm (shape _)
    | @record before' after' record' _ wellFormed' fault' =>
      cases ordered with
      | array each =>
        have records := JsonValue.array.inj same
        have inside : record ∈ before' ++ record' :: after' :=
          records ▸ List.mem_append_right _ List.mem_cons_self
        have bad := fault.not_wellFormed (each record inside)
        have bad' := fault'.not_wellFormed
          (each record' (List.mem_append_right _ List.mem_cons_self))
        obtain ⟨rfl, rfl⟩ := eq_of_append_cons_eq records wellFormed bad wellFormed' bad'
        exact fault.unique fault'

/-- The value of a text is loaded as the examples its records describe, or its error is
reported. -/
theorem ofRecords_outcome {value : JsonValue} (ordered : value.Ascending) :
    (∃ examples records, ofRecords value = .ok examples ∧ value = .array records ∧
      (∀ record ∈ records, WellFormed record) ∧ List.Forall₂ Describes records examples) ∨
    ∃ error, ofRecords value = .error error ∧ LoadFault value error := by
  cases ordered with
  | null | bool | number | text | object => exact .inr ⟨.notAnArray, rfl, .notAnArray nofun⟩
  | @array records each =>
    obtain ⟨examples, all, wellFormed, described⟩ |
      ⟨before, record, after, error, rfl, wellFormed, fault, failed⟩ := mapM_ofRecord_outcome 0 each
    · exact .inl ⟨examples, records, all, rfl, wellFormed, described⟩
    · rw [Nat.zero_add] at fault
      exact .inr ⟨error, failed, .record wellFormed fault⟩

/-- Loading examples is exact. A text of a JSON value, in which the keys of every object ascend,
is loaded exactly when the value is an array of records; then each example expects the output of
its record and binds exactly the other fields. Otherwise the error is that of the value itself or
of the first record that is not well formed: of several unacceptable fields the one of the least
key is named, and a missing output only if there is none. -/
theorem loading_is_exact {text : String} {value : JsonValue}
    (found : JsonValue.ofText? text = some value) :
    value.Ascending ∧
    ((∃ examples, parse text = .ok examples) ↔
      ∃ records, value = .array records ∧ ∀ record ∈ records, WellFormed record) ∧
    (∀ examples, parse text = .ok examples →
      ∃ records, value = .array records ∧ List.Forall₂ Describes records examples) ∧
    ∀ error, parse text = .error error ↔ LoadFault value error := by
  have ordered := JsonValue.ascending_of_ofText? found
  have parsed : parse text = ofRecords value := by
    unfold parse
    rw [found]
  rw [parsed]
  refine ⟨ordered, ?_⟩
  obtain ⟨examples, records, all, same, wellFormed, described⟩ | ⟨error, failed, fault⟩ :=
    ofRecords_outcome ordered
  · refine ⟨⟨fun _ => ⟨records, same, wellFormed⟩, fun _ => ⟨examples, all⟩⟩, ?_, ?_⟩
    · intro loaded returned
      obtain rfl := Except.ok.inj (all.symm.trans returned)
      exact ⟨records, same, described⟩
    · intro error
      refine ⟨fun failed => (nomatch all.symm.trans failed), fun fault => ?_⟩
      exact absurd ⟨records, same, wellFormed⟩ (fault.not_array ordered)
  · refine ⟨⟨?_, fun loadable => absurd loadable (fault.not_array ordered)⟩, ?_, ?_⟩
    · rintro ⟨examples, returned⟩
      exact nomatch failed.symm.trans returned
    · exact fun examples returned => nomatch failed.symm.trans returned
    · intro other
      constructor
      · intro failedToo
        obtain rfl := Except.error.inj (failed.symm.trans failedToo)
        exact fault
      · intro otherFault
        rw [failed, fault.unique otherFault ordered]

/-- A capital letter sorts before the output key, and a small one after it: of three unacceptable
fields of the second record the one under the capital letter is named. -/
theorem loading_names_capital_key :
    ∃ value, JsonValue.ofText? "[\x7b\"x\": 1, \"_out\": false\x7d,
        \x7b\"x\": 1.5, \"_out\": null, \"Z\": true\x7d, 3]" = some value ∧
      value.Ascending ∧ LoadFault value (.badValue 1 "Z") := by
  obtain ⟨value, found⟩ : ∃ value, JsonValue.ofText? "[\x7b\"x\": 1, \"_out\": false\x7d,
        \x7b\"x\": 1.5, \"_out\": null, \"Z\": true\x7d, 3]" = some value :=
    Option.isSome_iff_exists.mp (by decide +kernel)
  obtain ⟨ordered, -, -, reported⟩ := loading_is_exact found
  exact ⟨value, found, ordered, (reported _).mp (by decide +kernel)⟩

end

end Example

end ProgramSynthesis
