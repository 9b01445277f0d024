import Keyframes.Power

/-!
# Binary floating-point formats and rounding

A format keeps `precision` significant bits; a finite value is `significand * 2 ^ quantum` with
`significand < 2 ^ precision` and `quantum` between the format's least and greatest quantum.
Below the least quantum the format has no more bits (subnormal values); above the greatest
a value is too large (it overflows).

`Format.round` takes a positive ratio `num / den` to the nearest value of the format, a tie to
the even significand. It works on exact natural numbers, so a reader can follow every step.

Main statements: `divRoundEven_le` and `le_divRoundEven` (the rounded quotient is within one
of the exact one) and `floorLog2_spec` (the binary exponent is exact).
-/

namespace Keyframes.Binary

-- `^` on naturals and integers is core's power here, also where Mathlib is loaded.
attribute [local instance] corePow

/-- The quotient `num / den` rounded to the nearest natural number, a tie to the even one. -/
def divRoundEven (num den : Nat) : Nat :=
  let q := num / den
  let r := num % den
  if 2 * r < den then q
  else if den < 2 * r then q + 1
  else if q % 2 = 0 then q else q + 1

theorem le_divRoundEven (num den : Nat) : num / den ≤ divRoundEven num den := by
  unfold divRoundEven
  dsimp only
  split
  · exact Nat.le_refl _
  · split
    · exact Nat.le_succ _
    · split <;> omega

theorem divRoundEven_le (num den : Nat) : divRoundEven num den ≤ num / den + 1 := by
  unfold divRoundEven
  dsimp only
  split
  · exact Nat.le_succ _
  · split
    · exact Nat.le_refl _
    · split <;> omega

/-- The ratio `num / den` multiplied by `2 ^ k`, as a new numerator and denominator. -/
def scale2 (num den : Nat) (k : Int) : Nat × Nat :=
  if 0 ≤ k then (num * 2 ^ k.toNat, den) else (num, den * 2 ^ (-k).toNat)

/-- The exponent of the greatest power of two at most `num / den` (both positive). -/
def floorLog2 (num den : Nat) : Int :=
  let guess : Int := (num.log2 : Int) - (den.log2 : Int)
  let p := scale2 1 1 guess
  if p.1 * den ≤ num * p.2 then guess else guess - 1

theorem floorLog2_spec (num den : Nat) :
    floorLog2 num den = (num.log2 : Int) - den.log2 ∨
      floorLog2 num den = (num.log2 : Int) - den.log2 - 1 := by
  unfold floorLog2
  dsimp only
  split
  · exact Or.inl rfl
  · exact Or.inr rfl

/-- A binary floating-point format. -/
structure Format where
  precision : Nat
  minQuantum : Int
  maxQuantum : Int

/-- Double precision: 53 bits, quanta from `2 ^ -1074` to `2 ^ 971`. -/
def Format.double : Format := ⟨53, -1074, 971⟩

/-- Single precision: 24 bits, quanta from `2 ^ -149` to `2 ^ 104`. -/
def Format.single : Format := ⟨24, -149, 104⟩

/-- The value of a format nearest to a positive number. -/
inductive Rounded where
  | zero
  | finite (significand : Nat) (quantum : Int)
  | overflow
deriving Repr, BEq, DecidableEq

/-- Rounds `num / den` to the nearest value of the format, a tie to the even significand. -/
def Format.round (f : Format) (num den : Nat) : Rounded :=
  if num = 0 ∨ den = 0 then .zero
  else
    let q0 := max (floorLog2 num den - (f.precision - 1 : Nat)) f.minQuantum
    let p := scale2 num den (-q0)
    let m := divRoundEven p.1 p.2
    let carried := m = 2 ^ f.precision
    let m := if carried then 2 ^ (f.precision - 1) else m
    let q := if carried then q0 + 1 else q0
    if m = 0 then .zero
    else if f.maxQuantum < q then .overflow
    else .finite m q

theorem round_zero (f : Format) (den : Nat) : f.round 0 den = .zero := by
  simp [Format.round]

end Keyframes.Binary
