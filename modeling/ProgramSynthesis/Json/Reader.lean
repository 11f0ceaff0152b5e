import ProgramSynthesis.Json.Token

/-!
# Reading JSON

A machine reads tokens one by one. It keeps the arrays and objects that are still open on a
stack, innermost first, and what it expects next. Its memory for open containers is bounded:
a text may nest at most 127 of them.
-/

namespace ProgramSynthesis

/-- A container that is waiting for the value being read. -/
inductive JsonFrame where
  /-- An array and its items so far, last first. -/
  | array (items : List JsonValue)
  /-- An object, its fields so far, and the key of the value being read. -/
  | object (fields : List (String × JsonValue)) (key : String)

/-- What has been read, and what may follow. -/
inductive JsonState where
  /-- A value must follow. -/
  | value (stack : List JsonFrame)
  /-- An array was opened: an item or its end must follow. -/
  | opened (stack : List JsonFrame)
  /-- An item ended: a comma or the end of the array must follow. -/
  | item (items : List JsonValue) (stack : List JsonFrame)
  /-- An object was opened: a key or its end must follow. -/
  | braced (stack : List JsonFrame)
  /-- A comma ended a field: a key must follow. -/
  | key (fields : List (String × JsonValue)) (stack : List JsonFrame)
  /-- A key was read: a colon must follow. -/
  | keyed (fields : List (String × JsonValue)) (key : String) (stack : List JsonFrame)
  /-- A field ended: a comma or the end of the object must follow. -/
  | field (fields : List (String × JsonValue)) (stack : List JsonFrame)
  /-- The whole value was read: nothing may follow. -/
  | finished (value : JsonValue)

namespace JsonState

/-- The largest number of containers that may be open at once. -/
def maxDepth : Nat := 127

/-- Hand a complete value to the innermost open container. -/
def complete (whole : JsonValue) : List JsonFrame → JsonState
  | [] => finished whole
  | .array items :: stack => item (whole :: items) stack
  | .object fields name :: stack => field (JsonValue.insertField name whole fields) stack

/-- Read the first token of a value. -/
def start (stack : List JsonFrame) : JsonToken → Option JsonState
  | .scalar whole => some (complete whole stack)
  | .text whole => some (complete (.text whole) stack)
  | .openArray => if stack.length < maxDepth then some (opened stack) else none
  | .openObject => if stack.length < maxDepth then some (braced stack) else none
  | _ => none

/-- Read one token. -/
def step : JsonState → JsonToken → Option JsonState
  | value stack, token => start stack token
  | opened stack, .closeArray => some (complete (.array []) stack)
  | opened stack, token => start (.array [] :: stack) token
  | item items stack, .comma => some (value (.array items :: stack))
  | item items stack, .closeArray => some (complete (.array items.reverse) stack)
  | braced stack, .closeObject => some (complete (.object []) stack)
  | braced stack, .text name => some (keyed [] name stack)
  | key fields stack, .text name => some (keyed fields name stack)
  | keyed fields name stack, .colon => some (value (.object fields name :: stack))
  | field fields stack, .comma => some (key fields stack)
  | field fields stack, .closeObject => some (complete (.object fields) stack)
  | _, _ => none

end JsonState

/-- The value that a text writes, if it is one. -/
def JsonValue.ofText? (input : String) : Option JsonValue := do
  let tokens ← JsonToken.ofText? input
  match ← tokens.foldlM JsonState.step (.value []) with
  | .finished value => some value
  | _ => none

end ProgramSynthesis
