import Keyframes.Action
import Keyframes.Geometry.Rotation

/-!
# Statements of the line language

One statement per source line: the object and animation names, a wait, a transformation of an
entity (translate, rotate, scale), spawning an entity, setting its item, block or text,
teleporting it, placing a block, or a raw command. A coordinate is absolute or relative (`~`) to
the entity's tracked value.
-/

namespace Keyframes.Source

/-- A coordinate: a value, absolute or added to the tracked value. -/
structure Coordinate where
  value : Float
  relative : Bool
deriving Repr, Inhabited

/-- Three coordinates. -/
structure Coords where
  x : Coordinate
  y : Coordinate
  z : Coordinate
deriving Repr, Inhabited

/-- The value a coordinate gives when the tracked value is `current`. -/
def Coordinate.resolve (c : Coordinate) (current : Float) : Float :=
  if c.relative then current + c.value else c.value

/-- A statement of the line language. -/
inductive Statement where
  | objectName (objectName animationName : String)
  | wait (ticks : Nat)
  | translate (entity : String) (coords : Coords) (duration : Nat)
  | rotate (entity : String) (axis : Geometry.Vec3) (angle : Float) (duration : Nat)
  | scale (entity : String) (coords : Coords) (duration : Nat)
  | spawn (source : String) (kind : EntityKind) (entity : String)
  | item (entity item : String)
  | block (entity blockId : String) (properties : List (String × String))
  | text (entity text : String)
  | teleport (entity : String) (offset : Geometry.Vec3)
  | placeBlock (x y z : Int) (blockId : String)
  | raw (command : String) (delayed : Bool)
deriving Repr, Inhabited

end Keyframes.Source
