import Keyframes.Json.Value

/-!
# Adding values

The sum of two JSON values as positions and offsets add: numbers add as `Number`s (a truth
value counts as one or zero), two strings or two arrays are joined, and any other pair is of
the wrong kinds.

A value equals an integer when it is that integer, a truth value standing for it, or a double
of exactly that value (`Value.integral?`); it compares with an integer when it is a number or a
truth value (`Value.compareInt`), and a double is compared exactly. `Value.toInt` takes the
whole number of a value, cutting a double toward zero and reading a string.

Main statements: `plus_int` (integers add exactly) and `integral_int`.
-/

namespace Keyframes.Json

-- `^` on naturals and integers is core's power here, also where Mathlib is loaded.
attribute [local instance] corePow

/-- The number a value stands for in a sum, if it stands for one. -/
def Value.asNumber? : Value → Option Number
  | .int n => some (.int n)
  | .bool b => some (.int (if b then 1 else 0))
  | .float x => some (.float x)
  | _ => none

/-- The value of a number. -/
def ofNumber : Number → Value
  | .int n => .int n
  | .float x => .float x

/-- The sum of two values. -/
def Value.plus (a b : Value) : Except Fault Value :=
  match a.asNumber?, b.asNumber? with
  | some x, some y => ofNumber <$> Number.add x y
  | _, _ =>
    match a.codes?, b.codes? with
    | some s, some t => .ok (Value.ofCodes (s ++ t))
    | some _, none =>
      .error (.wrongType ("can only concatenate str (not \"" ++ b.kindName ++ "\") to str"))
    | none, _ =>
    match a, b with
    | .arr xs, .arr ys => .ok (.arr (xs ++ ys))
    | .arr _, _ => .error (.wrongType ("can only concatenate list (not \"" ++ b.kindName ++ "\") to list"))
    | _, _ => .error (.wrongType ("unsupported operand type(s) for +: '" ++ a.kindName ++ "' and '" ++
        b.kindName ++ "'"))

/-- The integer a value equals, if it equals one. -/
def Value.integral? : Value → Option Int
  | .int n => some n
  | .bool b => some (if b then 1 else 0)
  | .float x =>
    let p := Binary.Parts.ofFloat x
    match p.shape with
    | .zero => some 0
    | .finite m q =>
      let s : Int := if p.negative then -(m : Int) else m
      if 0 ≤ q then some (s * 2 ^ q.toNat)
      else if m % 2 ^ (-q).toNat = 0 then some (s / 2 ^ (-q).toNat) else none
    | _ => none
  | _ => none

/-- How a value compares with an integer: `some none` for NaN, which compares with nothing, and
`none` for a value that is no number. -/
def Value.compareInt (v : Value) (n : Int) : Option (Option Ordering) :=
  match v with
  | .int a => some (some (compare a n))
  | .bool b => some (some (compare (if b then 1 else 0 : Int) n))
  | .float x => some (Binary.compareInt x n)
  | _ => none

/-- The refusal of a text that is no whole number. The text is shown quoted, and the quoted
form is cut after its first 200 characters. -/
def invalidLiteral (cs : List Nat) : Fault :=
  .refused ("invalid literal for int() with base 10: " ++
    String.ofList ((Text.quoteCodes cs).toList.take 200))

/-- A value as a whole number, as taking the integer of a value does: an integer as it is, a
truth value as one or zero, a double cut toward zero (an infinity or NaN has none), a string
read as the text of a whole number; any other value is of the wrong kind. -/
def Value.toInt : Value → Except Fault Int
  | .int n => .ok n
  | .bool b => .ok (if b then 1 else 0)
  | .float x =>
    let p := Binary.Parts.ofFloat x
    match p.shape with
    | .zero => .ok 0
    | .finite m q =>
      let magnitude : Nat := if 0 ≤ q then m * 2 ^ q.toNat else m / 2 ^ (-q).toNat
      .ok (if p.negative then -(magnitude : Int) else magnitude)
    | .infinite => .error .infiniteToInt
    | .nan => .error (.refused "cannot convert float NaN to integer")
  | .str s =>
    match Decimal.readIntText s with
    | .value n => .ok n
    | .invalid => .error (invalidLiteral (Text.codes s))
    | .tooLong digits => .error (.refused (Decimal.tooManyDigitsMessage digits))
  | .loose cs => .error (invalidLiteral cs)
  | v => .error (.wrongType
      ("int() argument must be a string, a bytes-like object or a real number, not '" ++
        v.kindName ++ "'"))

/-- A value as a count: an integer, or a truth value as one or zero. Any other value, a double
included, cannot count. -/
def Value.toIndex : Value → Except Fault Int
  | .int n => .ok n
  | .bool b => .ok (if b then 1 else 0)
  | v => .error (.wrongType ("'" ++ v.kindName ++ "' object cannot be interpreted as an integer"))

theorem integral_int (n : Int) : (Value.int n).integral? = some n := rfl

theorem plus_int (x y : Int) : (Value.int x).plus (.int y) = .ok (.int (x + y)) := rfl

end Keyframes.Json
