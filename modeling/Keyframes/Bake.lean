import Keyframes.Source.Program
import Keyframes.RuleTable
import Keyframes.Path
import Keyframes.Json.Value

/-!
# Baking a program into a rule table

Baking walks the statements of a program with a running tick offset. A wait moves the offset
forward; every other statement becomes a rule at the current offset, in source order, except a
raw command marked to run on every tick, which joins the every-tick commands. A trailing wait
stretches the cycle: the end offset is the final offset when it lies beyond the last rule.

The baker tracks the translation, rotation and scale of every entity in double precision, from
zero, the identity and one; spawning an entity starts it afresh. A relative coordinate adds to
the tracked value; a rotation composes onto the tracked one (the new rotation applied after
it). Only the emitted merge rounds to single precision, and a value that leaves the single
range there fails the baking with the entity and the offset.

Names: the timeline is `object-animation`, an entity's tag is `object-entity`. Without an
object line both names are the stem of the file name, which must be a name.

Main statements: `bakeAll_append` (baking two runs of statements in sequence) and
`timelineName_eq`.
-/

namespace Keyframes
open Keyframes.Source Keyframes.Geometry

/-- The transformation the baker tracks for one entity. -/
structure Tracked where
  translation : Vec3 := ⟨0.0, 0.0, 0.0⟩
  rotation : List Number := [.float 0.0, .float 0.0, .float 0.0, .float 1.0]
  scale : Vec3 := ⟨1.0, 1.0, 1.0⟩
deriving Inhabited

/-- A baked timeline: its names, its rule table, its every-tick commands and its source. -/
structure Compiled where
  objectName : String
  animationName : String
  table : RuleTable
  everyTick : List String
  sourcePath : String
deriving Inhabited

/-- The name of a timeline. -/
def timelineName (objectName animationName : String) : String :=
  objectName ++ "-" ++ animationName

theorem timelineName_eq (o a : String) : timelineName o a = o ++ "-" ++ a := rfl

/-- The tag of an entity of an object. -/
def entityTag (objectName entity : String) : String :=
  objectName ++ "-" ++ entity

/-- The timeline name of a baked timeline. -/
def Compiled.name (c : Compiled) : String :=
  timelineName c.objectName c.animationName

/-- The state of baking: the running offset, the rules and every-tick commands so far (both
reversed) and the tracked entities. -/
structure Baker where
  objectName : String
  path : String
  delay : Nat := 0
  rules : List Rule := []
  everyTick : List String := []
  entities : List (String × Tracked) := []

namespace Baker

/-- The tag of an entity. -/
def tag (b : Baker) (entity : String) : String :=
  entityTag b.objectName entity

/-- The tracked state of an entity (fresh if it has none yet). -/
def tracked (b : Baker) (entity : String) : Tracked :=
  (b.entities.lookup entity).getD {}

/-- Sets the tracked state of an entity, in place if it has one. -/
def track (b : Baker) (entity : String) (t : Tracked) : Baker :=
  if b.entities.any (·.1 == entity) then
    { b with entities := b.entities.map fun e => if e.1 == entity then (entity, t) else e }
  else { b with entities := b.entities ++ [(entity, t)] }

/-- Adds a rule at the current offset. -/
def add (b : Baker) (a : Action) : Baker :=
  { b with rules := ⟨b.delay, a⟩ :: b.rules }

/-- Adds a merge of tracked values, failing with the entity and the offset when a value leaves
the single range. -/
def merge (b : Baker) (entity : String) (channel : Channel) (values : List Float)
    (duration : Nat) : Except Fault Baker :=
  match Action.merge? (b.tag entity) channel values (.num duration) (.num 0) with
  | .ok a => .ok (b.add a)
  | .error e => .error (.badInput (b.path ++ ": entity '" ++ entity ++ "' at tick " ++
      toString b.delay ++ ": " ++ e.message))

/-- The components of a vector. -/
def components (v : Vec3) : List Float := [v.x, v.y, v.z]

/-- The doubles of the components of a quaternion. -/
def quaternionValues (q : List Number) : List Float :=
  q.map fun n => match n with
    | .float x => x
    | .int i => Float.ofInt i

/-- Bakes one statement. -/
def bake (b : Baker) : Statement → Except Fault Baker
  | .objectName _ _ => .ok b
  | .wait t => .ok { b with delay := b.delay + t }
  | .translate e c d =>
    let cur := (b.tracked e).translation
    let v : Vec3 := ⟨c.x.resolve cur.x, c.y.resolve cur.y, c.z.resolve cur.z⟩
    (b.track e { b.tracked e with translation := v }).merge e .translation (components v) d
  | .scale e c d =>
    let cur := (b.tracked e).scale
    let v : Vec3 := ⟨c.x.resolve cur.x, c.y.resolve cur.y, c.z.resolve cur.z⟩
    (b.track e { b.tracked e with scale := v }).merge e .scale (components v) d
  | .rotate e axis angle d => do
    let step ← ofAxisAngle ((components axis).map .float) (.float angle)
    let q ← Geometry.mul (step.map .float) (b.tracked e).rotation
    (b.track e { b.tracked e with rotation := q }).merge e .leftRotation (quaternionValues q) d
  | .spawn source kind e =>
    .ok ((b.track e {}).add (.summon kind (tagSet [b.objectName, b.tag e]) (some (b.tag source))))
  | .item e i => .ok (b.add (.setState (b.tag e) .item [("item", .str i)]))
  | .block e blockId props =>
    let properties := Json.objOfFields (props.map fun (n, v) => (n, Json.Value.str v))
    .ok (b.add (.setState (b.tag e) .block [("id", .str blockId), ("properties", properties)]))
  | .text e t => .ok (b.add (.setState (b.tag e) .text [("text", .str t)]))
  | .teleport e o =>
    .ok (b.add (.setState (b.tag e) .position
      [("offset", .arr ((components o).map Json.Value.float))]))
  | .placeBlock x y z blockId => .ok (b.add (.setBlock x y z blockId))
  | .raw command delayed =>
    if delayed then .ok (b.add (.raw command))
    else .ok { b with everyTick := command :: b.everyTick }

end Baker

/-- Bakes statements in order. -/
def bakeAll (b : Baker) : List Statement → Except Fault Baker
  | [] => .ok b
  | s :: rest => do bakeAll (← b.bake s) rest

theorem bakeAll_append (b : Baker) (xs ys : List Statement) :
    bakeAll b (xs ++ ys) = (bakeAll b xs >>= fun b' => bakeAll b' ys) := by
  induction xs generalizing b with
  | nil => rfl
  | cons s rest ih =>
    simp only [List.cons_append, bakeAll]
    cases b.bake s with
    | error e => rfl
    | ok b' => exact ih b'

/-- The object and animation names of a program: those of its object line, or the stem of its
file name twice. -/
def programNames (p : Program) : Except Fault (String × String) :=
  match p.statements.findSome? fun s => match s with
    | .objectName o a => some (o, a)
    | _ => none with
  | some names => .ok names
  | none =>
    let stem := (PurePath.ofString p.path).stem
    if isName stem then .ok (stem, stem)
    else .error (.badInput (p.path ++ ": no 'object' line and the file name " ++
      Text.quote stem ++ " is not a valid name"))

/-- Bakes a program into a timeline. -/
def compileProgram (p : Program) : Except Fault Compiled := do
  let (o, a) ← programNames p
  let b ← bakeAll { objectName := o, path := p.path } p.statements
  let rules := b.rules.reverse
  let lastRule := rules.foldl (fun acc r => max acc r.offset) 0
  let endOffset := if lastRule < b.delay then some (Ticks.num b.delay) else none
  return { objectName := o, animationName := a, table := ⟨rules, endOffset⟩,
           everyTick := b.everyTick.reverse, sourcePath := p.path }

end Keyframes
