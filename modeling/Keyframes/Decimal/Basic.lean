import Keyframes.Binary.Format

/-!
# Decimal numbers

A `Scientific` is `digits * 10 ^ exponent`: a natural number of digits and a power of ten. The
module measures decimals (`length`, `floorLog10`) and writes them, in two notations:

* `positional`: all digits in place, no exponent; no point when the value is whole, and no zero
  at the end of a fraction.
* `short`: the notation of shortest number texts: positional when the point falls from four
  places before the first digit to sixteen places after it, else one digit, the rest after a
  point, and `e` with a signed exponent of at least two digits. A whole positional value ends in
  `.0`.

Main statements: `positional_whole` (a whole value is its digits followed by zeros) and
`length_pos` (every number has at least one digit).
-/

namespace Keyframes.Decimal

-- `^` on naturals and integers is core's power here, also where Mathlib is loaded.
attribute [local instance] corePow

/-- The decimal digits of a natural number, most significant first. -/
def digitChars (n : Nat) : List Char :=
  Nat.toDigits 10 n

/-- The number of decimal digits of a natural number (one for zero). -/
def length (n : Nat) : Nat :=
  (digitChars n).length

theorem length_pos (n : Nat) : 0 < length n :=
  List.length_pos_iff.2 Nat.toDigits_ne_nil

/-- The ratio `num / den` multiplied by `10 ^ k`, as a new numerator and denominator. -/
def scale10 (num den : Nat) (k : Int) : Nat × Nat :=
  if 0 ≤ k then (num * 10 ^ k.toNat, den) else (num, den * 10 ^ (-k).toNat)

/-- The exponent of the greatest power of ten at most `num / den` (both positive). -/
def floorLog10 (num den : Nat) : Int :=
  let guess : Int := (length num : Int) - length den
  let p := scale10 1 1 guess
  if p.1 * den ≤ num * p.2 then guess else guess - 1

/-- A number written as digits times a power of ten. -/
structure Scientific where
  digits : Nat
  exponent : Int
deriving Repr, BEq, DecidableEq

/-- Drops the zeros at the end of the digits, moving them into the exponent; `fuel` bounds
the number of zeros dropped. -/
def Scientific.trimFuel : Nat → Scientific → Scientific
  | 0, d => d
  | fuel + 1, d =>
    if d.digits ≠ 0 ∧ d.digits % 10 = 0 then
      Scientific.trimFuel fuel ⟨d.digits / 10, d.exponent + 1⟩
    else d

/-- The same number with no zero at the end of its digits (zero stays as it is). -/
def Scientific.trim (d : Scientific) : Scientific :=
  Scientific.trimFuel (length d.digits) d

/-- The text of the digits with the point placed `point` digits from the left; `point` may lie
before the first digit or after the last. Zeros fill the gap. -/
def placePoint (ds : List Char) (point : Int) : List Char :=
  if point ≤ 0 then '0' :: '.' :: (List.replicate (-point).toNat '0' ++ ds)
  else if (ds.length : Int) ≤ point then ds ++ List.replicate (point.toNat - ds.length) '0'
  else ds.take point.toNat ++ '.' :: ds.drop point.toNat

/-- The positional text of a decimal: no exponent, no point for a whole value, no zero at the end
of a fraction. -/
def Scientific.positional (d : Scientific) : String :=
  let t := d.trim
  let ds := digitChars t.digits
  String.ofList (placePoint ds (ds.length + t.exponent))

/-- The text of an exponent: `e`, its sign and at least two digits. -/
def exponentText (e : Int) : List Char :=
  let ds := digitChars e.natAbs
  'e' :: (if e < 0 then '-' else '+') :: (if ds.length < 2 then '0' :: ds else ds)

/-- The text of a shortest number: positional when the point falls within four places before the
first digit and sixteen after it, else with an exponent. -/
def Scientific.short (d : Scientific) : String :=
  let t := d.trim
  let ds := digitChars t.digits
  let point : Int := ds.length + t.exponent
  if point ≤ -4 ∨ 16 < point then
    let mantissa := match ds with
      | [] => []
      | [c] => [c]
      | c :: rest => c :: '.' :: rest
    String.ofList (mantissa ++ exponentText (point - 1))
  else if (ds.length : Int) ≤ point then
    String.ofList (placePoint ds point ++ ['.', '0'])
  else String.ofList (placePoint ds point)

theorem positional_whole (ds : List Char) (point : Nat) (h : ds.length ≤ point) (hp : 0 < point) :
    placePoint ds point = ds ++ List.replicate (point - ds.length) '0' := by
  unfold placePoint
  rw [if_neg (by omega), if_pos (by omega)]
  simp

end Keyframes.Decimal
