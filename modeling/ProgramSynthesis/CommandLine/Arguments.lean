import ProgramSynthesis.Word

/-!
# Command-line arguments

An option is written `--name value` or `--name=value`. A value that starts with a hyphen is
taken for another option unless the option admits such values; a lone hyphen is a value. Two
hyphens end the options: what follows is positional whatever it looks like. What an option or
a positional argument means is up to the record that collects them: a `store` refuses a value
that it cannot read or has no room for.
-/

namespace ProgramSynthesis.CommandLine

/-- Why the reading of arguments ends without a command. -/
inductive Stop where
  /-- The arguments break the rules of usage. -/
  | usage
  /-- The version was asked for. -/
  | version
  /-- The usage was asked for. -/
  | help
deriving DecidableEq, Repr

/-- An option that takes a value, in a record of type `α`. -/
structure OptionSpec (α : Type) where
  /-- The name, without hyphens. -/
  name : String
  /-- Whether a value may start with a hyphen. -/
  hyphenValues : Bool
  /-- Put a value into the record. -/
  store : String → α → Option α

/-- What one argument looks like. -/
inductive Shape where
  /-- Two hyphens alone. -/
  | separator
  /-- Two hyphens, a name, and perhaps a value after an equals sign. -/
  | long (name : String) (attached : Option String)
  /-- One hyphen and letters. -/
  | short (letters : List Char)
  /-- Anything else. -/
  | plain
deriving DecidableEq, Repr

/-- The shape of an argument. -/
def Shape.of (argument : String) : Shape :=
  match argument.toList with
  | ['-', '-'] => separator
  | '-' :: '-' :: text =>
    let name := String.ofList (text.takeWhile (· ≠ '='))
    match text.dropWhile (· ≠ '=') with
    | [] => long name none
    | _ :: value => long name (some (String.ofList value))
  | '-' :: letter :: letters => short (letter :: letters)
  | _ => plain

/-- Decimal digits as a number; there must be one at least, and nothing else. -/
def digits? (text : List Char) : Option Nat :=
  if text ≠ [] ∧ text.all Char.isDigit then
    some (text.foldl (fun value digit => 10 * value + (digit.toNat - '0'.toNat)) 0)
  else
    none

/-- A number below two to the 64th, perhaps after a plus sign. -/
def natural? (text : String) : Option Nat := do
  let value ← match text.toList with
    | '+' :: digits => digits? digits
    | digits => digits? digits
  if value ≤ maxCount then some value else none

/-- A 64-bit integer, perhaps after a sign. -/
def integer? (text : String) : Option Int64 := do
  let value : Int ← match text.toList with
    | '+' :: digits => (digits? digits).map Int.ofNat
    | '-' :: digits => (digits? digits).map fun value => -(value : Int)
    | digits => (digits? digits).map Int.ofNat
  int64? value

/-- Fill a place that admits one value: it must be free, and the value readable. -/
def once {α : Type} (place : Option α) (value : Option α) : Option (Option α) :=
  match place with
  | some _ => none
  | none => value.map some

/-- Store the value of a named option, attached or in front of the other arguments, and return
the arguments that are left. -/
def storeOption {α : Type} (options : List (OptionSpec α)) (record : α) (name : String)
    (attached : Option String) (rest : List String) :
    Option (α × { later : List String // later.length ≤ rest.length }) :=
  match options.find? (·.name = name) with
  | none => none
  | some option =>
    match attached, rest with
    | some value, rest =>
      (option.store value record).map fun record => (record, ⟨rest, Nat.le_refl _⟩)
    | none, [] => none
    | none, value :: later =>
      if option.hyphenValues ∨ Shape.of value = .plain then
        (option.store value record).map fun record => (record, ⟨later, Nat.le_succ _⟩)
      else
        none

/-- Store positional arguments in order; each place takes one. -/
def storePositionals {α : Type} (record : α) :
    List (String → α → Option α) → List String → Option α
  | _, [] => some record
  | [], _ :: _ => none
  | store :: places, argument :: rest => do storePositionals (← store argument record) places rest

/-- Read the arguments of a command into a record, options and positional arguments in any
order. -/
def readArguments {α : Type} (options : List (OptionSpec α)) (record : α)
    (places : List (String → α → Option α)) (arguments : List String) : Except Stop α :=
  match arguments with
  | [] => .ok record
  | argument :: rest =>
    match Shape.of argument with
    | .separator =>
      match storePositionals record places rest with
      | some record => .ok record
      | none => .error .usage
    | .long "help" none => .error .help
    | .long name attached =>
      match storeOption options record name attached rest with
      | some (record, ⟨later, _⟩) => readArguments options record places later
      | none => .error .usage
    | .short ('h' :: _) => .error .help
    | .short _ => .error .usage
    | .plain =>
      match places with
      | [] => .error .usage
      | store :: places =>
        match store argument record with
        | some record => readArguments options record places rest
        | none => .error .usage
termination_by arguments.length

end ProgramSynthesis.CommandLine
