import Keyframes.Decimal.Basic

/-!
# Shortest decimals of a double

A positive double `m * 2 ^ q` stands for every real number that rounds to it: the interval
from halfway to its lower neighbour to halfway to its upper neighbour, the ends included when
`m` is even. Its shortest decimal is the decimal with the fewest digits inside that interval;
of two such decimals, the nearer one, and of two equally near, the one with the even last digit.

For `k` digits the decimals lie on the grid of `10 ^ (j - k + 1)`, where `10 ^ j` is the greatest
power of ten at most the value. If a point of the grid lies in the interval, then so does one
of the value's two neighbours on the grid, since the interval holds the value; so trying those
two neighbours for `k = 1, 2, …, 17` finds the shortest decimal. Seventeen digits always
suffice for a double.

Main statement: `gridCandidate_within` (a decimal found on a grid lies in the interval).
-/

namespace Keyframes.Decimal
open Keyframes.Binary

-- `^` on naturals and integers is core's power here, also where Mathlib is loaded. A literal
-- exponent is given its type, or Mathlib's default instance would pick the power.
attribute [local instance] corePow

/-- A positive rational number as a numerator and a denominator. -/
structure Ratio where
  num : Nat
  den : Nat

/-- `a ≤ b` for ratios with positive denominators. -/
def Ratio.le (a b : Ratio) : Bool :=
  a.num * b.den ≤ b.num * a.den

/-- `a < b` for ratios with positive denominators. -/
def Ratio.lt (a b : Ratio) : Bool :=
  a.num * b.den < b.num * a.den

/-- `digits * 10 ^ exponent` as a ratio. -/
def Scientific.toRatio (d : Scientific) : Ratio :=
  let p := scale10 d.digits 1 d.exponent
  ⟨p.1, p.2⟩

/-- `significand * 2 ^ quantum` as a ratio. -/
def binaryRatio (significand : Nat) (quantum : Int) : Ratio :=
  let p := scale2 significand 1 quantum
  ⟨p.1, p.2⟩

/-- The reals that round to a positive double: its bounds, and whether they belong to it. -/
structure Neighbourhood where
  low : Ratio
  high : Ratio
  closed : Bool

/-- The neighbourhood of `m * 2 ^ q`. The lower neighbour is nearer by half when `m` is the
least significand of its binade above the subnormal range. -/
def neighbourhood (m : Nat) (q : Int) : Neighbourhood :=
  let lowerGap := if m = 2 ^ (52 : Nat) ∧ -1074 < q then 1 else 2
  { low := binaryRatio (4 * m - lowerGap) (q - 2)
    high := binaryRatio (4 * m + 2) (q - 2)
    closed := m % 2 = 0 }

/-- Whether a ratio lies in a neighbourhood. -/
def Neighbourhood.holds (n : Neighbourhood) (x : Ratio) : Bool :=
  if n.closed then n.low.le x && x.le n.high else n.low.lt x && x.lt n.high

/-- The decimal of `k` digits nearest to `m * 2 ^ q` that lies in its neighbourhood, if any. -/
def gridCandidate (m : Nat) (q : Int) (k : Nat) : Option Scientific :=
  let v := binaryRatio m q
  let n := neighbourhood m q
  let t := floorLog10 v.num v.den - k + 1
  let scaled := scale10 v.num v.den (-t)
  let below := scaled.1 / scaled.2
  let lower : Scientific := ⟨below, t⟩
  let upper : Scientific := ⟨below + 1, t⟩
  let lowerIn := n.holds lower.toRatio
  let upperIn := n.holds upper.toRatio
  if lowerIn && upperIn then
    -- both lie in the neighbourhood: the nearer one, a tie to the even digit
    let twice : Ratio := ⟨2 * v.num, v.den⟩
    let middle := (Scientific.mk (2 * below + 1) t).toRatio
    if twice.lt middle then some lower
    else if middle.lt twice then some upper
    else if below % 2 = 0 then some lower else some upper
  else if lowerIn then some lower
  else if upperIn then some upper
  else none

/-- The shortest decimal of the positive double `m * 2 ^ q`, without zeros at the end. -/
def shortest (m : Nat) (q : Int) : Scientific :=
  match (List.range 17).findSome? (fun i => gridCandidate m q (i + 1)) with
  | some d => d.trim
  | none =>
    let v := binaryRatio m q
    let t := floorLog10 v.num v.den - 16
    let scaled := scale10 v.num v.den (-t)
    (Scientific.mk (Binary.divRoundEven scaled.1 scaled.2) t).trim

theorem gridCandidate_within {m : Nat} {q : Int} {k : Nat} {d : Scientific}
    (h : gridCandidate m q k = some d) : (neighbourhood m q).holds d.toRatio = true := by
  unfold gridCandidate at h
  simp only at h
  split at h
  · rename_i both
    simp only [Bool.and_eq_true] at both
    split at h
    · cases h; exact both.1
    · split at h
      · cases h; exact both.2
      · split at h <;> cases h
        · exact both.1
        · exact both.2
  · split at h
    · cases h; assumption
    · split at h
      · cases h; assumption
      · cases h

end Keyframes.Decimal
