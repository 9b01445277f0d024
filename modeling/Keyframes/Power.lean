/-!
# Powers of naturals and integers

The model computes `b ^ e` on naturals and integers by core's `Nat.pow` and `Int.pow`. Where
Mathlib is loaded, `^` on these types elaborates to its monoid power instead. A module that makes
`corePow` its local instance means the same thing whether Mathlib is loaded or not.
-/

namespace Keyframes

/-- Core's power on a type with a `NatPow` (naturals, integers), as an instance a module can pin.
It is reducible, so lemmas stated with either power apply to it. -/
@[reducible] def corePow {α : Type} [NatPow α] : Pow α Nat := instPowNat

end Keyframes
