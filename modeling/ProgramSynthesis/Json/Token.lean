import ProgramSynthesis.Json.Value

/-!
# JSON tokens

A JSON text is cut into tokens: punctuation, strings with their escapes resolved, and words,
which are the literals and the numerals. Blanks separate tokens and are dropped. A word is the
longest run of letters, digits, signs and points; no longer run can be the start of two
neighbouring tokens, since two values are never neighbours.
-/

namespace ProgramSynthesis

/-- The smallest meaningful part of a JSON text. -/
inductive JsonToken where
  /-- An opening bracket. -/
  | openArray
  /-- A closing bracket. -/
  | closeArray
  /-- An opening brace. -/
  | openObject
  /-- A closing brace. -/
  | closeObject
  /-- A comma. -/
  | comma
  /-- A colon. -/
  | colon
  /-- A string. -/
  | text (value : String)
  /-- A literal or a number. -/
  | scalar (value : JsonValue)
deriving Repr

namespace JsonToken

/-- Space, tab, line feed and carriage return separate tokens. -/
def isBlank (character : Char) : Bool :=
  character = ' ' || character = '\t' || character = '\n' || character = '\r'

/-- The characters of literals and numerals. -/
def isWord (character : Char) : Bool :=
  character.isAlphanum || character = '+' || character = '-' || character = '.'

/-- The token of a punctuation mark. -/
def punctuation? : Char → Option JsonToken
  | '[' => some openArray
  | ']' => some closeArray
  | '\x7b' => some openObject
  | '\x7d' => some closeObject
  | ',' => some comma
  | ':' => some colon
  | _ => none

/-- The token of a word: a literal, or a numeral that names a finite number. -/
def word? (word : List Char) : Option JsonToken :=
  if word = "null".toList then
    some (scalar .null)
  else if word = "true".toList then
    some (scalar (.bool true))
  else if word = "false".toList then
    some (scalar (.bool false))
  else do
    let numeral ← Numeral.ofText? word
    if numeral.isFinite then some (scalar (.number numeral)) else none

/-- The value of a hexadecimal digit of either case. -/
def hexDigit? (character : Char) : Option Nat :=
  if character.isDigit then
    some (character.toNat - '0'.toNat)
  else if 'a' ≤ character ∧ character ≤ 'f' then
    some (character.toNat - 'a'.toNat + 10)
  else if 'A' ≤ character ∧ character ≤ 'F' then
    some (character.toNat - 'A'.toNat + 10)
  else
    none

/-- The 16-bit unit that four hexadecimal digits at the front of a text write, and what
follows them. -/
def unit? : List Char → Option (Nat × List Char)
  | first :: second :: third :: fourth :: rest => do
    let digits ← [first, second, third, fourth].mapM hexDigit?
    return (digits.foldl (fun unit digit => unit * 16 + digit) 0, rest)
  | _ => none

/-- The character that an escape writes, after its backslash, and what follows it. A character
beyond 16 bits is written as two units, a leading and a trailing one; neither may stand
alone. -/
def escape? : List Char → Option (Char × List Char)
  | '"' :: rest => some ('"', rest)
  | '\\' :: rest => some ('\\', rest)
  | '/' :: rest => some ('/', rest)
  | 'b' :: rest => some ('\x08', rest)
  | 'f' :: rest => some ('\x0c', rest)
  | 'n' :: rest => some ('\n', rest)
  | 'r' :: rest => some ('\r', rest)
  | 't' :: rest => some ('\t', rest)
  | 'u' :: rest => do
    let (unit, rest) ← unit? rest
    if 0xD800 ≤ unit ∧ unit < 0xDC00 then
      match rest with
      | '\\' :: 'u' :: rest => do
        let (trailing, rest) ← unit? rest
        if 0xDC00 ≤ trailing ∧ trailing < 0xE000 then
          return (.ofNat (0x10000 + (unit - 0xD800) * 0x400 + (trailing - 0xDC00)), rest)
        else
          none
      | _ => none
    else if 0xDC00 ≤ unit ∧ unit < 0xE000 then
      none
    else
      return (.ofNat unit, rest)
  | _ => none

/-- Four digits are consumed. -/
theorem length_of_unit? {text rest : List Char} {unit : Nat}
    (found : unit? text = some (unit, rest)) : rest.length < text.length := by
  unfold unit? at found
  split at found
  · simp only [Option.pure_def, Option.bind_eq_bind, Option.bind_eq_some_iff, Option.some.injEq,
      Prod.mk.injEq] at found
    obtain ⟨_, _, _, rfl⟩ := found
    simp only [List.length_cons]
    omega
  · contradiction

/-- An escape is not empty. -/
theorem length_of_escape? {text rest : List Char} {character : Char}
    (found : escape? text = some (character, rest)) : rest.length < text.length := by
  unfold escape? at found
  split at found
  case h_9 later =>
    simp only [Option.bind_eq_bind, Option.bind_eq_some_iff] at found
    obtain ⟨⟨unit, after⟩, taken, found⟩ := found
    have consumed := length_of_unit? taken
    simp only at found
    split at found
    · split at found
      · rename_i last
        simp only [Option.bind_eq_some_iff] at found
        obtain ⟨⟨trailing, ending⟩, takenAgain, found⟩ := found
        have consumedAgain := length_of_unit? takenAgain
        simp only at found
        split at found
        · simp only [Option.pure_def, Option.some.injEq, Prod.mk.injEq] at found
          obtain ⟨_, rfl⟩ := found
          simp only [List.length_cons] at consumed ⊢
          omega
        · contradiction
      · contradiction
    · split at found
      · contradiction
      · simp only [Option.pure_def, Option.some.injEq, Prod.mk.injEq] at found
        obtain ⟨_, rfl⟩ := found
        simp only [List.length_cons]
        omega
  case h_10 => contradiction
  all_goals
    cases found
    simp

/-- The rest of a string after the characters already read, up to its closing quote, and what
follows that. Control characters must be escaped. -/
def quoted? (read : List Char) (input : List Char) : Option (String × List Char) :=
  match input with
  | [] => none
  | '"' :: rest => some (String.ofList read.reverse, rest)
  | '\\' :: rest =>
    match escaped : escape? rest with
    | none => none
    | some (character, later) =>
      have := length_of_escape? escaped
      quoted? (character :: read) later
  | character :: rest =>
    if character.toNat < 0x20 then none else quoted? (character :: read) rest
termination_by input.length

/-- The closing quote is consumed. -/
theorem length_of_quoted? {read input rest : List Char} {value : String}
    (found : quoted? read input = some (value, rest)) : rest.length < input.length := by
  fun_induction quoted? read input with
  | case1 => contradiction
  | case2 => cases found; simp
  | case3 => contradiction
  | case4 read later character after escaped consumed ih =>
    have := ih found
    simp only [List.length_cons]
    omega
  | case5 => contradiction
  | case6 read character later _ _ _ ih =>
    have := ih found
    simp only [List.length_cons]
    omega

/-- The tokens of a text, after those already read; none if some part of it is no token. -/
def scan? (read : List JsonToken) (input : List Char) : Option (List JsonToken) :=
  match input with
  | [] => some read.reverse
  | character :: rest =>
    if isBlank character then
      scan? read rest
    else if character = '"' then
      match closed : quoted? [] rest with
      | none => none
      | some (value, later) =>
        have := length_of_quoted? closed
        scan? (text value :: read) later
    else
      match punctuation? character with
      | some token => scan? (token :: read) rest
      | none =>
        match word? (character :: rest.takeWhile isWord) with
        | none => none
        | some token =>
          have := (List.dropWhile_sublist isWord (l := rest)).length_le
          scan? (token :: read) (rest.dropWhile isWord)
termination_by input.length

/-- The tokens of a text. -/
def ofText? (input : String) : Option (List JsonToken) := scan? [] input.toList

end JsonToken

end ProgramSynthesis
