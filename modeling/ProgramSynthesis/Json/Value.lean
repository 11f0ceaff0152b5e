import ProgramSynthesis.Json.Numeral

/-!
# JSON values

A JSON text as data. The fields of an object are kept in ascending order of their keys, each
key once: a later field of the same key replaces the earlier one.
-/

namespace ProgramSynthesis

/-- A JSON text as data. -/
inductive JsonValue where
  /-- The null literal. -/
  | null
  /-- A truth literal. -/
  | bool (value : Bool)
  /-- A number, as it is written. -/
  | number (value : Numeral)
  /-- A string. -/
  | text (value : String)
  /-- An array. -/
  | array (items : List JsonValue)
  /-- An object. -/
  | object (fields : List (String × JsonValue))
deriving Repr

namespace JsonValue

/-- The integer in a value. -/
def int64? : JsonValue → Option Int64
  | number value => value.int64?
  | _ => none

/-- Put a field into an ordered list of fields, in place of an earlier one of its key. -/
def insertField (key : String) (value : JsonValue) :
    List (String × JsonValue) → List (String × JsonValue)
  | [] => [(key, value)]
  | field :: fields =>
    if key < field.1 then
      (key, value) :: field :: fields
    else if key = field.1 then
      (key, value) :: fields
    else
      field :: insertField key value fields

end JsonValue

end ProgramSynthesis
