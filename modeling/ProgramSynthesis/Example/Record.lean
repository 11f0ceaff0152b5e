import ProgramSynthesis.Example.Basic
import ProgramSynthesis.Json.Reader

/-!
# Example records

Examples are stored as a JSON array of flat objects. The field `_out` holds the expected
output, an integer or a truth value; every other field binds an input to an integer. The
fields of a record are visited in the order of their keys, and the first fault found ends the
reading.
-/

namespace ProgramSynthesis

/-- Why the system does not hand out the contents of a file. -/
structure SystemError where
  /-- What went wrong, in the words of the system. -/
  description : String
  /-- The number of the error, if the system gives one. -/
  code? : Option UInt32
deriving DecidableEq, Repr

/-- The text that describes an error of the system. -/
def SystemError.message (error : SystemError) : String :=
  match error.code? with
  | some code => s!"{error.description} (os error {code})"
  | none => error.description

/-- Why a file of examples cannot be used. -/
inductive LoadError where
  /-- The file cannot be read. -/
  | unreadable (error : SystemError)
  /-- The file is not UTF-8 text. -/
  | notUtf8
  /-- The text is not JSON. -/
  | malformed
  /-- The text is no array. -/
  | notAnArray
  /-- An entry of the array is no object. -/
  | notAnObject (index : Nat)
  /-- A record lacks an output. -/
  | missingOutput (index : Nat)
  /-- A field of a record holds something else than an integer. -/
  | badValue (index : Nat) (key : String)
deriving DecidableEq, Repr

/-- The text that describes a load error. -/
def LoadError.message : LoadError → String
  | unreadable error => s!"failed to read examples: {error.message}"
  | notUtf8 => "failed to read examples: stream did not contain valid UTF-8"
  | malformed => "malformed JSON"
  | notAnArray => "examples must be a JSON array of objects"
  | notAnObject index => s!"example {index} is not a JSON object"
  | missingOutput index => s!"example {index} has no `_out` field"
  | badValue index key => s!"example {index}: `{key}` is not an integer"

namespace Example

/-- The key of the expected output. -/
def outputKey : String := "_out"

/-- Read the fields of a record after those already read. -/
def ofFields (index : Nat) (input : Env) (output : Option Value) :
    List (String × JsonValue) → Except LoadError Example
  | [] =>
    match output with
    | some output => .ok ⟨input, output⟩
    | none => .error (.missingOutput index)
  | (key, value) :: fields =>
    if key = outputKey then
      match value with
      | .bool flag => ofFields index input (some (.bool flag)) fields
      | value =>
        match value.int64? with
        | some number => ofFields index input (some (.int number)) fields
        | none => .error (.badValue index key)
    else
      match value.int64? with
      | some number => ofFields index (input.insert key number) output fields
      | none => .error (.badValue index key)

/-- Read one record. -/
def ofRecord (index : Nat) : JsonValue → Except LoadError Example
  | .object fields => ofFields index .empty none fields
  | _ => .error (.notAnObject index)

/-- Read an array of records, which are numbered from zero. -/
def ofRecords : JsonValue → Except LoadError (List Example)
  | .array records => records.zipIdx.mapM fun (record, index) => ofRecord index record
  | _ => .error .notAnArray

/-- Read examples from a text. -/
def parse (text : String) : Except LoadError (List Example) :=
  match JsonValue.ofText? text with
  | some value => ofRecords value
  | none => .error .malformed

/-- Read examples from the bytes of a file, if the system hands them out. -/
def load (contents : Except SystemError ByteArray) : Except LoadError (List Example) :=
  match contents with
  | .error error => .error (.unreadable error)
  | .ok bytes =>
    match String.fromUTF8? bytes with
    | none => .error .notUtf8
    | some text => parse text

end Example

end ProgramSynthesis
