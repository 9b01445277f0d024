import Keyframes.Action
import Keyframes.Json.Arith
import Keyframes.Json.Show
import Keyframes.Geometry.Rotation

/-!
# The world

An in-memory world that rules act on: display entities, placed blocks and commands run. Every
action that reaches the world is recorded, in order, before it takes effect. An entity has an
id (1, 2, 3, … in order of creation), a kind, a set of tags, a position, the three
transformation channels, the two interpolation counts and a state per state kind.

Tags are values: rules name them by strings, and an entity placed from outside may carry any
value a set holds. Two tags are one member of the set when they are equal strings or equal
numbers (`sameTag`); the set keeps the first and lists its members in order (`tagOrder`).

* A merge writes its channel and both interpolation counts of every entity carrying the target
  tag; nothing else changes.
* A summon adds an entity with the next id, at the position of the first entity carrying the
  anchor tag, or at the origin.
* A position state adds the payload's `offset` to the position of every entity carrying the
  target tag; any other state is stored under its kind.
* A block placement sets the block at its position; a command is appended.

The operations run in `ExceptT Fault (StateM World)`: an operation that fails keeps the changes
made before the failure (a position update may fail on the second of two entities).

Main statements: `runCommand_frame` (a command changes only the command list and the record)
and `setBlock_frame`.
-/

namespace Keyframes
open Keyframes.Json

/-- A display entity. -/
structure Entity where
  id : Nat
  kind : EntityKind
  tags : List Value
  position : List Value
  translation : List Float := [0.0, 0.0, 0.0]
  leftRotation : List Float := [0.0, 0.0, 0.0, 1.0]
  scale : List Float := [1.0, 1.0, 1.0]
  interpolationDuration : Ticks := .num 0
  startInterpolation : Ticks := .num 0
  state : List (String × Value) := []
deriving Inhabited

/-- The world: entities in order of creation, the record of actions that reached it, placed
blocks by position, and the commands run. -/
structure World where
  entities : List Entity := []
  calls : List Action := []
  blocks : List ((Int × Int × Int) × String) := []
  commands : List String := []
  nextId : Nat := 1
deriving Inhabited

/-- Operations on the world that may fail, keeping what they changed before. -/
abbrev WorldM := ExceptT Fault (StateM World)

/-- The origin, as summoned entities without an anchor stand there. -/
def origin : List Value := [.float 0.0, .float 0.0, .float 0.0]

/-- Whether two numbers are equal, a double and an integer compared exactly. -/
def Number.same : Number → Number → Bool
  | .int a, .int b => a == b
  | .float x, .float y => x == y
  | .float x, .int b => Binary.compareInt x b == some .eq
  | .int a, .float y => Binary.compareInt y a == some .eq

/-- Whether a number is at most another, a double and an integer compared exactly. -/
def Number.atMost : Number → Number → Bool
  | .int a, .int b => decide (a ≤ b)
  | .float x, .float y => x ≤ y
  | .float x, .int b => Binary.compareInt x b != some .gt
  | .int a, .float y => Binary.compareInt y a != some .lt

/-- Whether two tags are one member of a set of tags: equal strings, equal numbers (a truth
value counting as one or zero), or both null. -/
def sameTag (a b : Value) : Bool :=
  match a.codes?, b.codes? with
  | some s, some t => s == t
  | some _, none | none, some _ => false
  | none, none =>
    match a, b with
    | .null, .null => true
    | _, _ =>
      match a.asNumber?, b.asNumber? with
      | some x, some y => x.same y
      | _, _ => false

/-- The place of a tag in the order of a set's members: numbers, then strings, then the rest. -/
def tagRank (v : Value) : Nat :=
  match v.asNumber?, v.codes? with
  | some _, _ => 0
  | none, some _ => 1
  | none, none => 2

/-- Whether a tag comes before another or with it: numbers by value, strings by their code
points. -/
def tagOrder (a b : Value) : Bool :=
  match a.asNumber?, b.asNumber?, a.codes?, b.codes? with
  | some x, some y, _, _ => x.atMost y
  | _, _, some s, some t => decide (List.le s t)
  | _, _, _, _ => tagRank a ≤ tagRank b

/-- A set of tags: the first of every group of equal tags, in order. -/
def tagValues (tags : List Value) : List Value :=
  (tags.foldl (fun acc t => if acc.any (sameTag t) then acc else acc ++ [t]) []).mergeSort tagOrder

/-- Whether an entity carries a tag named by a string. -/
def Entity.hasTag (e : Entity) (tag : String) : Bool :=
  e.tags.any fun v => match v with
    | .str s => s == tag
    | _ => false

namespace World

/-- Adds an entity of `kind` with `tags` at `position`; gives its id. -/
def addEntity (w : World) (kind : EntityKind) (tags : List Value) (position : List Value) :
    Nat × World :=
  (w.nextId, { w with
    entities := w.entities ++ [{ id := w.nextId, kind, tags := tagValues tags, position }]
    nextId := w.nextId + 1 })

/-- The entities carrying a tag, in order. -/
def select (w : World) (tag : String) : List Entity :=
  w.entities.filter (·.hasTag tag)

/-- Changes every entity carrying `tag`. -/
def updateTagged (w : World) (tag : String) (f : Entity → Entity) : World :=
  { w with entities := w.entities.map fun e => if e.hasTag tag then f e else e }

/-- Sets a block, in place when its position has one. -/
def placeBlock (blocks : List ((Int × Int × Int) × String)) (pos : Int × Int × Int)
    (blockId : String) : List ((Int × Int × Int) × String) :=
  if blocks.any (·.1 == pos) then blocks.map fun b => if b.1 == pos then (pos, blockId) else b
  else blocks ++ [(pos, blockId)]

end World

/-- Records an action. -/
def record (a : Action) : WorldM Unit :=
  modify fun w => { w with calls := w.calls ++ [a] }

/-- Writes a channel of an entity. -/
def Entity.withChannel (e : Entity) (channel : Channel) (values : List Float)
    (duration start : Ticks) : Entity :=
  let e := match channel with
    | .translation => { e with translation := values }
    | .leftRotation => { e with leftRotation := values }
    | .scale => { e with scale := values }
  { e with interpolationDuration := duration, startInterpolation := start }

/-- The three values of a triple, refusing a different number. -/
def unpackTriple (vs : List Value) : Except Fault (Value × Value × Value) :=
  match vs with
  | [a, b, c] => .ok (a, b, c)
  | _ => if vs.length < 3 then .error (.tooFewValues 3 vs.length) else .error (.tooManyValues 3)

/-- The values that unpacking a value gives: the items of an array, the characters of a
string, the keys of an object. -/
def unpackable : Value → Except Fault (List Value)
  | .arr items => .ok items
  | .str s => .ok (s.toList.map fun c => .str (String.ofList [c]))
  | .obj fields => .ok (fields.map fun f => .str f.1)
  | v => .error (.wrongType ("cannot unpack non-iterable " ++ v.kindName ++ " object"))

/-- Moves an entity by the offset of a position payload. -/
def Entity.moved (e : Entity) (payload : List (String × Value)) : Except Fault Entity := do
  let some offset := getField? payload "offset" | .error (.missingKey (Text.quote "offset"))
  let (dx, dy, dz) ← unpackTriple (← unpackable offset)
  let (x, y, z) ← unpackTriple e.position
  return { e with position := [← x.plus dx, ← y.plus dy, ← z.plus dz] }

/-- Sets a state of an entity, in place when the entity has one of that kind. -/
def Entity.withState (e : Entity) (kind : StateKind) (payload : List (String × Value)) : Entity :=
  { e with state := setField e.state kind.name (.obj payload) }

/-- Moves the entities carrying `tag` one after another; a failure keeps the entities moved
before it. -/
def moveTagged (tag : String) (payload : List (String × Value)) : List Entity → WorldM Unit
  | [] => pure ()
  | e :: rest => do
    if e.hasTag tag then
      let moved ← liftExcept (e.moved payload)
      modify fun w => { w with entities := w.entities.map fun f => if f.id == e.id then moved else f }
    moveTagged tag payload rest
where
  liftExcept {α : Type} : Except Fault α → WorldM α
    | .ok a => pure a
    | .error err => throw err

/-- Carries out an action in the world, after recording it. -/
def perform (a : Action) : WorldM Unit := do
  record a
  match a with
  | .merge target channel values duration start =>
    modify fun w => w.updateTagged target fun e => e.withChannel channel values duration start
  | .summon kind tags anchor =>
    let w ← get
    let position := match anchor with
      | some tag => ((w.select tag).head?.map (·.position)).getD origin
      | none => origin
    modify fun w => (w.addEntity kind (tags.map .str) position).2
  | .setState target kind payload =>
    if kind == .position then moveTagged target payload (← get).entities
    else modify fun w => w.updateTagged target fun e => e.withState kind payload
  | .setBlock x y z blockId =>
    modify fun w => { w with blocks := World.placeBlock w.blocks (x, y, z) blockId }
  | .raw command => modify fun w => { w with commands := w.commands ++ [command] }

theorem runCommand_frame (w : World) (command : String) :
    (perform (.raw command)).run.run w =
      (.ok (), { w with calls := w.calls ++ [.raw command], commands := w.commands ++ [command] }) :=
  rfl

theorem setBlock_frame (w : World) (x y z : Int) (blockId : String) :
    (perform (.setBlock x y z blockId)).run.run w =
      (.ok (), { w with calls := w.calls ++ [.setBlock x y z blockId],
                        blocks := World.placeBlock w.blocks (x, y, z) blockId }) :=
  rfl

end Keyframes
