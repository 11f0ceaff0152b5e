import ProgramSynthesis.Json.Reader
import ProgramSynthesis.Proofs.ByteOrder

/-!
# The fields of an object stand in the order of their keys

Whatever order the fields of an object are written in, a reader hands them on in ascending order
of the bytes of their keys, each key once. The order is an invariant of the machine that reads
tokens: every container that is open holds ordered values, and a field that ends is put in its
place.
-/

namespace ProgramSynthesis

/-- Whether fields stand in strictly ascending order of the bytes of their keys. -/
def KeysAscend (fields : List (String × JsonValue)) : Prop :=
  fields.Pairwise fun first second => utf8Bytes first.1 < utf8Bytes second.1

/-- Under a key there is one value. -/
theorem KeysAscend.eq_of_mem {fields : List (String × JsonValue)} {key : String}
    {value other : JsonValue} (ascend : KeysAscend fields) (inside : (key, value) ∈ fields)
    (otherInside : (key, other) ∈ fields) : value = other := by
  induction fields with
  | nil => cases inside
  | cons field fields ih =>
    obtain ⟨below, rest⟩ := List.pairwise_cons.mp ascend
    have apart : ∀ held, (field.1, held) ∉ fields := fun held later =>
      List.lt_irrefl _ (below (field.1, held) later)
    obtain rfl | later := List.mem_cons.mp inside
    · obtain same | otherLater := List.mem_cons.mp otherInside
      · exact (congrArg Prod.snd same).symm
      · exact absurd otherLater (apart other)
    · obtain rfl | otherLater := List.mem_cons.mp otherInside
      · exact absurd later (apart value)
      · exact ih rest later otherLater

/-- Whether the keys of every object in a value ascend. -/
inductive JsonValue.Ascending : JsonValue → Prop where
  /-- The null value holds no object. -/
  | null : Ascending null
  /-- Nor does a truth value. -/
  | bool (value : Bool) : Ascending (bool value)
  /-- Nor does a number. -/
  | number (value : Numeral) : Ascending (number value)
  /-- Nor does a text. -/
  | text (value : String) : Ascending (text value)
  /-- The keys ascend in every item of an array. -/
  | array {items : List JsonValue} (each : ∀ item ∈ items, item.Ascending) :
    Ascending (array items)
  /-- The keys of an object ascend, and those in the values of its fields. -/
  | object {fields : List (String × JsonValue)} (keys : KeysAscend fields)
    (each : ∀ field ∈ fields, field.2.Ascending) : Ascending (object fields)

/-- Whether the keys of fields ascend, and those of every object in their values. -/
structure AscendingFields (fields : List (String × JsonValue)) : Prop where
  /-- The keys of the fields ascend. -/
  keys : KeysAscend fields
  /-- So do those within the values. -/
  each : ∀ field ∈ fields, field.2.Ascending

section

variable {key : String} {value : JsonValue} {fields : List (String × JsonValue)}

/-- The fields after an insertion are the inserted one and earlier ones. -/
theorem eq_or_mem_of_mem_insertField {field : String × JsonValue}
    (inside : field ∈ JsonValue.insertField key value fields) :
    field = (key, value) ∨ field ∈ fields := by
  induction fields with
  | nil => exact .inl (List.mem_singleton.mp inside)
  | cons first fields ih =>
    unfold JsonValue.insertField at inside
    split_ifs at inside
    · exact List.mem_cons.mp inside
    · exact (List.mem_cons.mp inside).imp_right (List.mem_cons_of_mem first)
    · obtain rfl | inside := List.mem_cons.mp inside
      · exact .inr List.mem_cons_self
      · exact (ih inside).imp_right (List.mem_cons_of_mem first)

/-- An insertion keeps keys ascending. -/
theorem KeysAscend.insertField (ascend : KeysAscend fields) :
    KeysAscend (JsonValue.insertField key value fields) := by
  induction fields with
  | nil => exact List.pairwise_singleton _ _
  | cons first fields ih =>
    obtain ⟨below, ascend⟩ := List.pairwise_cons.mp ascend
    unfold JsonValue.insertField
    split_ifs with less same
    · have lower := utf8Bytes_lt_iff.mpr less
      refine List.pairwise_cons.mpr ⟨?_, List.pairwise_cons.mpr ⟨below, ascend⟩⟩
      intro field inside
      obtain rfl | inside := List.mem_cons.mp inside
      · exact lower
      · exact List.lt_trans lower (below field inside)
    · subst same
      exact List.pairwise_cons.mpr ⟨below, ascend⟩
    · have greater : first.1 < key := by
        obtain smaller | equal | larger := lt_trichotomy key first.1
        · exact absurd smaller less
        · exact absurd equal same
        · exact larger
      refine List.pairwise_cons.mpr ⟨?_, ih ascend⟩
      intro field inside
      obtain rfl | inside := eq_or_mem_of_mem_insertField inside
      · exact utf8Bytes_lt_iff.mpr greater
      · exact below field inside

/-- The fields of no object ascend. -/
theorem AscendingFields.nil : AscendingFields [] :=
  ⟨.nil, List.forall_mem_nil _⟩

/-- An insertion of an ordered value keeps fields ordered. -/
theorem AscendingFields.insertField (ordered : AscendingFields fields) (whole : value.Ascending) :
    AscendingFields (JsonValue.insertField key value fields) := by
  refine ⟨ordered.keys.insertField, fun field inside => ?_⟩
  obtain rfl | inside := eq_or_mem_of_mem_insertField inside
  · exact whole
  · exact ordered.each field inside

end

/-- Whether what an open container holds is ordered. -/
def JsonFrame.Ascending : JsonFrame → Prop
  | .array items => ∀ item ∈ items, item.Ascending
  | .object fields _ => AscendingFields fields

/-- Whether the value of a token, if it has one, is ordered. -/
def JsonToken.Ascending : JsonToken → Prop
  | .scalar value => value.Ascending
  | _ => True

namespace JsonState

/-- Whether everything read so far is ordered. -/
def Ascending : JsonState → Prop
  | value stack | opened stack | braced stack => ∀ frame ∈ stack, frame.Ascending
  | item items stack => (∀ item ∈ items, item.Ascending) ∧ ∀ frame ∈ stack, frame.Ascending
  | key fields stack | keyed fields _ stack | field fields stack =>
    AscendingFields fields ∧ ∀ frame ∈ stack, frame.Ascending
  | finished whole => whole.Ascending

variable {state next : JsonState} {stack : List JsonFrame} {token : JsonToken}
  {tokens : List JsonToken} {whole : JsonValue}

/-- A complete value leaves everything ordered. -/
theorem ascending_complete (containers : ∀ frame ∈ stack, frame.Ascending)
    (ordered : whole.Ascending) : (complete whole stack).Ascending := by
  cases stack with
  | nil => exact ordered
  | cons frame stack =>
    obtain ⟨first, rest⟩ := List.forall_mem_cons.mp containers
    cases frame with
    | array items => exact ⟨List.forall_mem_cons.mpr ⟨ordered, first⟩, rest⟩
    | object fields name => exact ⟨AscendingFields.insertField first ordered, rest⟩

/-- The first token of a value leaves everything ordered. -/
theorem ascending_of_start (containers : ∀ frame ∈ stack, frame.Ascending)
    (ordered : token.Ascending) (started : start stack token = some next) : next.Ascending := by
  cases token with
  | scalar whole =>
    cases started
    exact ascending_complete containers ordered
  | text whole =>
    cases started
    exact ascending_complete containers (.text whole)
  | openArray | openObject =>
    obtain ⟨-, opening⟩ := Option.ite_none_right_eq_some.mp started
    cases opening
    exact containers
  | closeArray | closeObject | comma | colon => cases started

/-- Every token leaves everything ordered. -/
theorem ascending_of_step (before : state.Ascending) (ordered : token.Ascending)
    (stepped : state.step token = some next) : next.Ascending := by
  cases state with
  | value stack => exact ascending_of_start before ordered stepped
  | opened stack =>
    cases token with
    | closeArray =>
      cases stepped
      exact ascending_complete before (.array (List.forall_mem_nil _))
    | openArray | openObject | closeObject | comma | colon | text _ | scalar _ =>
      have inner : ∀ frame ∈ JsonFrame.array [] :: stack, frame.Ascending :=
        List.forall_mem_cons.mpr ⟨List.forall_mem_nil _, before⟩
      exact ascending_of_start inner ordered stepped
  | item items stack =>
    obtain ⟨items, containers⟩ := before
    cases token with
    | comma =>
      cases stepped
      exact List.forall_mem_cons.mpr ⟨items, containers⟩
    | closeArray =>
      cases stepped
      have each := fun item inside => items item (List.mem_reverse.mp inside)
      exact ascending_complete containers (.array each)
    | openArray | openObject | closeObject | colon | text _ | scalar _ => cases stepped
  | braced stack =>
    cases token with
    | closeObject =>
      cases stepped
      exact ascending_complete before (.object .nil (List.forall_mem_nil _))
    | text name =>
      cases stepped
      exact ⟨.nil, before⟩
    | openArray | closeArray | openObject | comma | colon | scalar _ => cases stepped
  | key fields stack =>
    cases token with
    | text name =>
      cases stepped
      exact before
    | openArray | closeArray | openObject | closeObject | comma | colon | scalar _ => cases stepped
  | keyed fields name stack =>
    cases token with
    | colon =>
      cases stepped
      exact List.forall_mem_cons.mpr before
    | openArray | closeArray | openObject | closeObject | comma | text _ | scalar _ => cases stepped
  | field fields stack =>
    obtain ⟨fields, containers⟩ := before
    cases token with
    | comma =>
      cases stepped
      exact ⟨fields, containers⟩
    | closeObject =>
      cases stepped
      exact ascending_complete containers (.object fields.keys fields.each)
    | openArray | closeArray | openObject | colon | text _ | scalar _ => cases stepped
  | finished whole => cases stepped

/-- So does every row of tokens. -/
theorem ascending_of_foldlM (before : state.Ascending) (ordered : ∀ token ∈ tokens, token.Ascending)
    (reached : tokens.foldlM step state = some next) : next.Ascending := by
  induction tokens generalizing state with
  | nil =>
    cases reached
    exact before
  | cons token tokens ih =>
    obtain ⟨first, rest⟩ := List.forall_mem_cons.mp ordered
    rw [List.foldlM_cons] at reached
    obtain ⟨after, stepped, reached⟩ := Option.bind_eq_some_iff.mp reached
    exact ih (ascending_of_step before first stepped) rest reached

end JsonState

namespace JsonToken

/-- A word is a literal or a numeral, which holds no object. -/
theorem ascending_of_word? {word : List Char} {token : JsonToken}
    (found : word? word = some token) : token.Ascending := by
  unfold word? at found
  split_ifs at found
  · cases found
    exact .null
  · cases found
    exact .bool true
  · cases found
    exact .bool false
  · obtain ⟨numeral, -, finite⟩ := Option.bind_eq_some_iff.mp found
    obtain ⟨-, made⟩ := Option.ite_none_right_eq_some.mp finite
    cases made
    exact .number numeral

/-- A mark has no value. -/
theorem ascending_of_punctuation? {character : Char} {token : JsonToken}
    (found : punctuation? character = some token) : token.Ascending := by
  unfold punctuation? at found
  split at found <;> cases found <;> trivial

/-- The values of the tokens of a text are ordered. -/
theorem ascending_of_scan? {read tokens : List JsonToken} {input : List Char}
    (earlier : ∀ token ∈ read, token.Ascending) (scanned : scan? read input = some tokens) :
    ∀ token ∈ tokens, token.Ascending := by
  fun_induction scan? read input with
  | case1 read =>
    cases scanned
    exact fun token inside => earlier token (List.mem_reverse.mp inside)
  | case2 read character rest blank ih => exact ih earlier scanned
  | case3 => cases scanned
  | case4 read rest value later _ _ _ ih =>
    exact ih (List.forall_mem_cons.mpr ⟨trivial, earlier⟩) scanned
  | case5 read character rest _ _ token found ih =>
    exact ih (List.forall_mem_cons.mpr ⟨ascending_of_punctuation? found, earlier⟩) scanned
  | case6 => cases scanned
  | case7 read character rest _ _ _ token found _ ih =>
    exact ih (List.forall_mem_cons.mpr ⟨ascending_of_word? found, earlier⟩) scanned

end JsonToken

/-- The keys of every object that is read from a text ascend. -/
theorem JsonValue.ascending_of_ofText? {input : String} {value : JsonValue}
    (found : ofText? input = some value) : value.Ascending := by
  obtain ⟨tokens, scanned, found⟩ := Option.bind_eq_some_iff.mp found
  obtain ⟨state, reached, found⟩ := Option.bind_eq_some_iff.mp found
  have ordered := JsonToken.ascending_of_scan? (List.forall_mem_nil _) scanned
  have begun : (JsonState.value []).Ascending := List.forall_mem_nil _
  have final : state.Ascending := JsonState.ascending_of_foldlM begun ordered reached
  split at found
  · cases found
    exact final
  · cases found

end ProgramSynthesis
