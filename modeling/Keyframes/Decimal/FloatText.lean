import Keyframes.Decimal.Shortest
import Keyframes.Binary.Double

/-!
# The text of a double

A finite double is written as its shortest decimal in the short notation, with a minus sign
when its sign bit is set; zero is `0.0` or `-0.0`. The infinities are `inf` and `-inf`, and
NaN is `nan`.

Main statement: `partsText_zero` (zero is written `0.0`, with its sign).
-/

namespace Keyframes.Decimal
open Keyframes.Binary

/-- The text of a double taken apart: its shortest decimal, or the word for a value that is
not finite. -/
def partsText (parts : Parts) : String :=
  let sign := if parts.negative then "-" else ""
  match parts.shape with
  | .zero => sign ++ "0.0"
  | .infinite => sign ++ "inf"
  | .nan => "nan"
  | .finite m q => sign ++ (shortest m q).short

/-- The text of a double. -/
def floatText (x : Float) : String :=
  partsText (Parts.ofFloat x)

theorem partsText_zero (negative : Bool) :
    partsText ⟨negative, .zero⟩ = (if negative then "-" else "") ++ "0.0" := rfl

end Keyframes.Decimal
