import Keyframes.Decimal.Read
import Keyframes.Decimal.FloatText

/-!
# Numbers

A `Number` is an integer of any size or a double. Arithmetic keeps integers exact as long as
both operands are integers; as soon as one is a double, the integer is first rounded to a double
(and an integer beyond the double range is a fault), and the double operation follows.

Main statements: `add_int` and `mul_int` (integers stay exact).
-/

namespace Keyframes

/-- An integer of any size or a double. -/
inductive Number where
  | int (n : Int)
  | float (x : Float)
deriving Repr, Inhabited

namespace Number
open Keyframes.Binary

/-- The double of a number; an integer beyond the double range is a fault. -/
def toFloat : Number → Except Fault Float
  | .int n => ofInt? n
  | .float x => .ok x

/-- Combines two numbers: the integer operation on two integers, else the double operation on
their doubles. -/
def combine (onInt : Int → Int → Int) (onFloat : Float → Float → Float) (a b : Number) :
    Except Fault Number :=
  match a, b with
  | .int x, .int y => .ok (.int (onInt x y))
  | _, _ => do
    let x ← a.toFloat
    let y ← b.toFloat
    return .float (onFloat x y)

/-- The sum of two numbers. -/
def add (a b : Number) : Except Fault Number := combine (· + ·) (· + ·) a b

/-- The difference of two numbers. -/
def sub (a b : Number) : Except Fault Number := combine (· - ·) (· - ·) a b

/-- The product of two numbers. -/
def mul (a b : Number) : Except Fault Number := combine (· * ·) (· * ·) a b

theorem add_int (x y : Int) : add (.int x) (.int y) = .ok (.int (x + y)) := rfl

theorem mul_int (x y : Int) : mul (.int x) (.int y) = .ok (.int (x * y)) := rfl

/-- The text of a number: the digits of an integer, the shortest text of a double. -/
def text : Number → String
  | .int n => toString n
  | .float x => Decimal.floatText x

end Number

end Keyframes
