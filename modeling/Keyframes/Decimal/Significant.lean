import Keyframes.Decimal.Basic

/-!
# Rounding to significant digits

`roundSignificant m q k` is the decimal of `k` significant digits nearest to the positive
value `m * 2 ^ q`, a tie to the even last digit: the value is scaled so that `k` digits stand
before the point and the quotient is rounded. When rounding carries into a new digit
(`99.5` to two digits), the result is the next power of ten.
-/

namespace Keyframes.Decimal
open Keyframes.Binary

-- `^` on naturals and integers is core's power here, also where Mathlib is loaded.
attribute [local instance] corePow

/-- The decimal of `k` significant digits nearest to `m * 2 ^ q`. -/
def roundSignificant (m : Nat) (q : Int) (k : Nat) : Scientific :=
  let v := scale2 m 1 q
  let t := floorLog10 v.1 v.2 - k + 1
  let scaled := scale10 v.1 v.2 (-t)
  let r := divRoundEven scaled.1 scaled.2
  if r = 10 ^ k then ⟨10 ^ (k - 1), t + 1⟩ else ⟨r, t⟩

end Keyframes.Decimal
