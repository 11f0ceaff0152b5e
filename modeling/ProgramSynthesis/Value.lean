import ProgramSynthesis.Fault

/-!
# Values

What a program computes: a 64-bit integer or a truth value. Equality is strict, so an
integer never equals a truth value. The two accessors fault on the other kind.
-/

namespace ProgramSynthesis

/-- The result of a program. -/
inductive Value where
  /-- An integer. -/
  | int (value : Int64)
  /-- A truth value. -/
  | bool (value : Bool)
deriving DecidableEq, Hashable, Repr

namespace Value

/-- The type of a value. -/
def ty : Value → Ty
  | int _ => .int
  | bool _ => .bool

/-- The written form of a value. -/
def text : Value → String
  | int value => decimal value
  | bool value => toString value

/-- The integer in a value. -/
def asInt : Value → Except Fault Int64
  | int value => .ok value
  | bool value => .error (.expectedInt value)

/-- The truth value in a value. -/
def asBool : Value → Except Fault Bool
  | bool value => .ok value
  | int value => .error (.expectedBool value)

/-- The integer accessor succeeds exactly on integers. -/
theorem asInt_eq_ok_iff (value : Value) (number : Int64) :
    value.asInt = .ok number ↔ value = int number := by
  cases value <;> simp [asInt]

/-- The truth-value accessor succeeds exactly on truth values. -/
theorem asBool_eq_ok_iff (value : Value) (flag : Bool) :
    value.asBool = .ok flag ↔ value = bool flag := by
  cases value <;> simp [asBool]

end Value

end ProgramSynthesis
