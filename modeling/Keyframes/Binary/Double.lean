import Keyframes.Binary.Format
import Keyframes.Fault

/-!
# Doubles by their bits

A double is read from its 64 bits as a sign and a shape: zero, a finite value
`significand * 2 ^ quantum`, an infinity, or not a number. Building a double from a rounded
value goes the other way. Both work on the bits, so the value of every double this library
writes is fixed by exact arithmetic.

Main statement: `ofBits_zero` (the bits of zero are the positive zero).
-/

namespace Keyframes.Binary

-- `^` on naturals and integers is core's power here, also where Mathlib is loaded. A literal
-- exponent is given its type, or Mathlib's default instance would pick the power.
attribute [local instance] corePow

/-- The kind and magnitude of a double. -/
inductive Shape where
  | zero
  | finite (significand : Nat) (quantum : Int)
  | infinite
  | nan
deriving Repr, BEq, DecidableEq

/-- A double taken apart: its sign bit and its shape. -/
structure Parts where
  negative : Bool
  shape : Shape
deriving Repr, BEq, DecidableEq

/-- Takes the bits of a double apart. -/
def Parts.ofBits (bits : Nat) : Parts :=
  let field : Nat := bits / 2 ^ (52 : Nat) % 2 ^ (11 : Nat)
  let fraction : Nat := bits % 2 ^ (52 : Nat)
  { negative := 2 ^ (63 : Nat) ≤ bits % 2 ^ (64 : Nat)
    shape :=
      if field = 2047 then (if fraction = 0 then .infinite else .nan)
      else if field = 0 then (if fraction = 0 then .zero else .finite fraction (-1074))
      else .finite (fraction + 2 ^ (52 : Nat)) ((field : Int) - 1075) }

/-- Takes a double apart. -/
def Parts.ofFloat (x : Float) : Parts :=
  Parts.ofBits x.toBits.toNat

/-- The bits of a signed double-precision rounded value. -/
def bitsOfRounded (negative : Bool) : Rounded → Nat
  | .zero => if negative then 2 ^ (63 : Nat) else 0
  | .overflow => (if negative then 2 ^ (63 : Nat) else 0) + 2047 * 2 ^ (52 : Nat)
  | .finite m q =>
    let sign := if negative then 2 ^ (63 : Nat) else 0
    if m < 2 ^ (52 : Nat) then sign + m
    else sign + (q + 1075).toNat * 2 ^ (52 : Nat) + (m - 2 ^ (52 : Nat))

/-- The double of a signed double-precision rounded value. -/
def floatOfRounded (negative : Bool) (r : Rounded) : Float :=
  Float.ofBits (bitsOfRounded negative r).toUInt64

/-- The double nearest to the ratio `num / den`, with a sign. -/
def floatOfRatio (negative : Bool) (num den : Nat) : Float :=
  floatOfRounded negative (Format.double.round num den)

/-- The double of an integer, rounded to nearest; an integer whose rounding leaves the double
range is a fault. -/
def ofInt? (n : Int) : Except Fault Float :=
  match Format.double.round n.natAbs 1 with
  | .overflow => .error .intTooLarge
  | r => .ok (floatOfRounded (n < 0) r)

/-- The double nearest to `significand * 2 ^ quantum`, with a sign. -/
def floatOfBinary (negative : Bool) (significand : Nat) (quantum : Int) : Float :=
  let p := scale2 significand 1 quantum
  floatOfRatio negative p.1 p.2

/-- Whether a double is neither infinite nor NaN. -/
def isFinite (x : Float) : Bool :=
  match (Parts.ofFloat x).shape with
  | .infinite | .nan => false
  | _ => true

/-- How a double compares with an integer, exactly; `none` for NaN, which compares with
nothing. -/
def compareInt (x : Float) (n : Int) : Option Ordering :=
  let p := Parts.ofFloat x
  match p.shape with
  | .nan => none
  | .infinite => some (if p.negative then .lt else .gt)
  | .zero => some (compare 0 n)
  | .finite m q =>
    let s : Int := if p.negative then -(m : Int) else m
    if 0 ≤ q then some (compare (s * 2 ^ q.toNat) n)
    else some (compare s (n * 2 ^ (-q).toNat))

theorem ofBits_zero : Parts.ofBits 0 = ⟨false, .zero⟩ := by
  decide

end Keyframes.Binary
