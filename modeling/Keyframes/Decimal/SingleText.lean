import Keyframes.Decimal.Significant
import Keyframes.Decimal.Read
import Keyframes.Decimal.FloatText
import Keyframes.Binary.Single

/-!
# The text of a single-precision number

Command scripts write a transformation value as the fewest significant digits, at most nine,
that read back as the same single-precision number, in positional notation: `0.70710677`,
`1`, `0.0000001`, `340000000000000000000000000000000000000`. Zero of either sign is `0`.

The value is first rounded to single precision. Then for `k = 1, 2, …, 9` the value rounded to
`k` significant digits is read back as a double and rounded to single precision again; the
first that gives the value back is written. Each reading back is itself a rounding to single
precision and may leave its range: a short decimal near the greatest single-precision number
can lie beyond the point where single precision overflows, and then the whole writing fails.
-/

namespace Keyframes.Decimal
open Keyframes.Binary

/-- The first of the decimals rounded to `k = 1, …, 9` significant digits that reads back as
the single-precision value `m * 2 ^ q` with the given sign; `none` when none does. A reading
back that overflows fails. -/
def firstReadingBack (negative : Bool) (m : Nat) (q : Int) (value : Float) :
    List Nat → Except Fault (Option Scientific)
  | [] => .ok none
  | k :: ks => do
    let d := roundSignificant m q k
    let back ← toSingle (d.toFloat negative)
    if back == value then .ok (some d) else firstReadingBack negative m q value ks

/-- The positional text of a single-precision number with the fewest digits that read back. -/
def singleText (x : Float) : Except Fault String := do
  let v ← toSingle x
  let parts := Parts.ofFloat v
  match parts.shape with
  | .zero => .ok "0"
  | .infinite | .nan => .error (.nonFiniteSingle (floatText v))
  | .finite m q =>
    let sign := if parts.negative then "-" else ""
    match ← firstReadingBack parts.negative m q v ((List.range 9).map (· + 1)) with
    | some d => .ok (sign ++ d.positional)
    | none => .ok (sign ++ (shortest m q).positional)

end Keyframes.Decimal
