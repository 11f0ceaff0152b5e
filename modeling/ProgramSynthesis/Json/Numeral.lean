import ProgramSynthesis.Word

/-!
# Numerals

A numeral is a number as it is written in a JSON text: a sign, whole digits, and optionally a
fraction and an exponent. It is an integer when it is written as one and fits 64 bits; minus
zero is not. Any other numeral only has to name a finite binary64 number.

A reader of numerals keeps 64 bits of significand: digits are taken while they fit, whole
digits that no longer fit raise the scale, and fraction digits that no longer fit are dropped.
The number is then the nearest binary64 number to the significand times the nearest one to the
power of ten, rounded once more.
-/

namespace ProgramSynthesis

/-- The nearest multiple of a power of two that has at most 53 significant bits; halfway, the
one with an even last bit. -/
def roundSignificand (value : Nat) : Nat :=
  let shift := value.log2 - 52
  let quotient := value >>> shift
  let remainder := value - (quotient <<< shift)
  let roundsUp := 2 * remainder > 1 <<< shift ||
    (2 * remainder == 1 <<< shift && quotient % 2 == 1)
  (if roundsUp then quotient + 1 else quotient) <<< shift

/-- A number below two to the 53rd has no bits to lose. -/
theorem roundSignificand_of_lt (value : Nat) (small : value < 1 <<< 53) :
    roundSignificand value = value := by
  have shift : value.log2 - 52 = 0 := by
    rcases Nat.eq_zero_or_pos value with rfl | positive
    · rfl
    · have := (Nat.log2_lt (k := 53) (Nat.pos_iff_ne_zero.mp positive)).mpr small
      omega
  simp [roundSignificand, shift]

/-- A number as it is written. -/
structure Numeral where
  /-- Whether a minus sign stands in front. -/
  negative : Bool
  /-- The digits before the point. -/
  whole : List Nat
  /-- The digits after the point, if there is one. -/
  fraction : Option (List Nat)
  /-- The exponent, if there is one. -/
  exponent : Option Int
deriving DecidableEq, Repr

namespace Numeral

/-- The value of a decimal digit. -/
def digit (character : Char) : Nat := character.toNat - '0'.toNat

/-- The number that digits write, after a number already read. -/
def value (read : Nat) (digits : List Nat) : Nat :=
  digits.foldl (fun read digit => 10 * read + digit) read

/-- The digits at the front of a text, which must be there, and what follows them. -/
def digits? (text : List Char) : Option (List Nat × List Char) :=
  match text.takeWhile Char.isDigit with
  | [] => none
  | digits => some (digits.map digit, text.dropWhile Char.isDigit)

/-- The fraction at the front of a text, if a point stands there, and what follows it. -/
def fraction? : List Char → Option (Option (List Nat) × List Char)
  | '.' :: rest => do
    let (digits, rest) ← digits? rest
    return (some digits, rest)
  | rest => some (none, rest)

/-- The exponent that makes up a text; an empty text has none. -/
def exponent? : List Char → Option (Option Int)
  | [] => some none
  | mark :: rest =>
    if mark = 'e' ∨ mark = 'E' then do
      let (sign, rest) : Int × List Char := match rest with
        | '+' :: rest => (1, rest)
        | '-' :: rest => (-1, rest)
        | rest => (1, rest)
      let (digits, rest) ← digits? rest
      if rest.isEmpty then
        return some (sign * value 0 digits)
      else
        none
    else
      none

/-- Read a whole text as a numeral. Leading zeros are refused. -/
def ofText? (text : List Char) : Option Numeral := do
  let (negative, rest) := match text with
    | '-' :: rest => (true, rest)
    | rest => (false, rest)
  let (whole, rest) ← digits? rest
  match whole with
  | 0 :: _ :: _ => none
  | _ => do
    let (fraction, rest) ← fraction? rest
    let exponent ← exponent? rest
    return ⟨negative, whole, fraction, exponent⟩

/-- The integer that a numeral writes, if it has neither fraction nor exponent, fits 64 bits,
and is not minus zero. -/
def int64? (numeral : Numeral) : Option Int64 :=
  match numeral.fraction, numeral.exponent with
  | none, none =>
    let magnitude : Int := value 0 numeral.whole
    if numeral.negative then
      if magnitude = 0 then none else ProgramSynthesis.int64? (-magnitude)
    else
      ProgramSynthesis.int64? magnitude
  | _, _ => none

/-- Take digits into a significand while it fits 64 bits; what no longer fits is left. -/
def takeDigits (significand : Nat) : List Nat → Nat × List Nat
  | [] => (significand, [])
  | digit :: digits =>
    if 10 * significand + digit ≤ maxCount then
      takeDigits (10 * significand + digit) digits
    else
      (significand, digit :: digits)

/-- Whether a numeral names a finite binary64 number. A scale above 308 is too large whatever
the significand, unless that is zero; a negative scale never is. -/
def isFinite (numeral : Numeral) : Bool :=
  let (whole, excess) := takeDigits 0 numeral.whole
  let fraction := numeral.fraction.getD []
  let (significand, dropped) := takeDigits whole fraction
  let scale : Int := numeral.exponent.getD 0 + excess.length + dropped.length - fraction.length
  if significand = 0 ∨ scale < 0 then
    true
  else if 308 < scale then
    false
  else
    let product := roundSignificand significand * roundSignificand (Nat.pow 10 scale.toNat)
    roundSignificand product < 1 <<< 1024

end Numeral

end ProgramSynthesis
