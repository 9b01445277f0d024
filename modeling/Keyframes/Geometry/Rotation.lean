import Keyframes.Number

/-!
# Rotations

An axis is three numbers; normalising it divides each by the length, and an axis of length zero
is refused. A rotation is a unit quaternion `[x, y, z, w]` (vector part first). The rotation by
an angle in degrees about an axis has the sine of half the angle on the normalised axis and the
cosine of half the angle as `w`; the angle becomes radians through the factor `π / 180`, and an
infinite angle has no sine. The product `a * b` applies `b` first, then `a`.

Every value is taken in order, exactly as many as there are places: an axis with more than three
components or fewer is refused, after the components up to the fourth have been read.
-/

namespace Keyframes.Geometry
open Keyframes.Binary

/-- Reads the first `n + 1` values at most, each by `read`, and insists on exactly `n` values:
more are refused once the extra one has been read, fewer once all have been read. -/
def unpack {α β : Type} (read : α → Except Fault β) (n : Nat) (values : List α) :
    Except Fault (List β) := do
  let read ← (values.take (n + 1)).mapM read
  if values.length < n then .error (.tooFewValues n values.length)
  else if n < values.length then .error (.tooManyValues n)
  else .ok read

/-- The components of an axis as doubles. -/
structure Vec3 where
  x : Float
  y : Float
  z : Float
deriving Repr, Inhabited

/-- An axis divided by its length. -/
def normalizeAxis (axis : List Number) : Except Fault Vec3 := do
  match ← unpack Number.toFloat 3 axis with
  | [x, y, z] =>
    let length := (x * x + y * y + z * z).sqrt
    if length == 0.0 then .error .zeroAxis
    else .ok ⟨x / length, y / length, z / length⟩
  | _ => .error (.tooFewValues 3 0)

/-- The number `π` as a double. -/
def pi : Float := 3.141592653589793

/-- The sine of a double; an infinite argument has none. -/
def sine (x : Float) : Except Fault Float :=
  match (Parts.ofFloat x).shape with
  | .infinite => .error .mathDomain
  | _ => .ok x.sin

/-- The rotation by `degrees` about `axis`. -/
def ofAxisAngle (axis : List Number) (degrees : Number) : Except Fault (List Float) := do
  let a ← normalizeAxis axis
  let d ← degrees.toFloat
  let half := d * (pi / 180.0) / 2.0
  let s ← sine half
  return [a.x * s, a.y * s, a.z * s, half.cos]

/-- A sum of products `± a * b`, evaluated from the left; the first product is added. -/
def sumOfProducts : List (Bool × Number × Number) → Except Fault Number
  | [] => .ok (.int 0)
  | (_, a, b) :: rest => do
    let first ← Number.mul a b
    rest.foldlM (fun acc (negative, a, b) => do
      let p ← Number.mul a b
      if negative then Number.sub acc p else Number.add acc p) first

/-- The product `a * b` of two quaternions: `b` is applied first, then `a`. -/
def mul (a b : List Number) : Except Fault (List Number) := do
  match ← unpack .ok 4 a, ← unpack .ok 4 b with
  | [ax, ay, az, aw], [cx, cy, cz, cw] =>
    let x ← sumOfProducts [(false, aw, cx), (false, ax, cw), (false, ay, cz), (true, az, cy)]
    let y ← sumOfProducts [(false, aw, cy), (true, ax, cz), (false, ay, cw), (false, az, cx)]
    let z ← sumOfProducts [(false, aw, cz), (false, ax, cy), (true, ay, cx), (false, az, cw)]
    let w ← sumOfProducts [(false, aw, cw), (true, ax, cx), (true, ay, cy), (true, az, cz)]
    return [x, y, z, w]
  | _, _ => .error (.tooFewValues 4 0)

end Keyframes.Geometry
