import Keyframes.Json.Value
import Keyframes.Binary.Single

/-!
# Actions

What a rule does when its tick comes: merge a transformation channel into tagged entities,
summon a display entity, set an entity's state (block, item, text or position), place a block,
or run a raw command.

A merge carries single-precision values, exactly as many as its channel has components (four
for the left rotation, three for translation and scale); `Action.merge?` rounds the values and
refuses any that are not finite. A summon's tags form a set, kept sorted and without repeats.
Tick counts that a table may spell as truth values are `Ticks`.

Main statement: `merge?_values` (an accepted merge holds the rounded values, as many as the
channel has components).
-/

namespace Keyframes

/-- A tick count as a document states it: a number, or a truth value standing for one or zero.
The spelling is kept, because it is written back as it came. -/
inductive Ticks where
  | num (n : Nat)
  | flag (b : Bool)
deriving Repr, BEq, DecidableEq, Inhabited

/-- The number of ticks. -/
def Ticks.toNat : Ticks → Nat
  | .num n => n
  | .flag b => if b then 1 else 0

/-- The text of a tick count: its digits, or `True` or `False`. -/
def Ticks.text : Ticks → String
  | .num n => toString n
  | .flag b => if b then "True" else "False"

/-- The name of the kind of a tick count, as messages about comparing with it show it. -/
def Ticks.kindName : Ticks → String
  | .num _ => "int"
  | .flag _ => "bool"

/-- The JSON form of a tick count. -/
def Ticks.toJson : Ticks → Json.Value
  | .num n => .int n
  | .flag b => .bool b

/-- The kinds of display entity. -/
inductive EntityKind where
  | blockDisplay
  | itemDisplay
  | textDisplay
deriving Repr, BEq, DecidableEq, Inhabited

/-- Every entity kind, in the order messages list them. -/
def EntityKind.all : List EntityKind := [.blockDisplay, .itemDisplay, .textDisplay]

/-- The name of an entity kind. -/
def EntityKind.name : EntityKind → String
  | .blockDisplay => "block_display"
  | .itemDisplay => "item_display"
  | .textDisplay => "text_display"

/-- The entity kind of a name. -/
def EntityKind.ofName? (s : String) : Option EntityKind :=
  EntityKind.all.find? (·.name == s)

/-- The transformation channels an entity has. -/
inductive Channel where
  | translation
  | leftRotation
  | scale
deriving Repr, BEq, DecidableEq, Inhabited

/-- Every channel, in the order messages list them. -/
def Channel.all : List Channel := [.translation, .leftRotation, .scale]

/-- The name of a channel. -/
def Channel.name : Channel → String
  | .translation => "translation"
  | .leftRotation => "left_rotation"
  | .scale => "scale"

/-- The channel of a name. -/
def Channel.ofName? (s : String) : Option Channel :=
  Channel.all.find? (·.name == s)

/-- The number of components of a channel: a quaternion for the rotation, a vector else. -/
def Channel.arity : Channel → Nat
  | .leftRotation => 4
  | _ => 3

/-- The kinds of entity state a rule can set. -/
inductive StateKind where
  | block
  | item
  | text
  | position
deriving Repr, BEq, DecidableEq, Inhabited

/-- Every state kind, in the order messages list them. -/
def StateKind.all : List StateKind := [.block, .item, .text, .position]

/-- The name of a state kind. -/
def StateKind.name : StateKind → String
  | .block => "block"
  | .item => "item"
  | .text => "text"
  | .position => "position"

/-- The state kind of a name. -/
def StateKind.ofName? (s : String) : Option StateKind :=
  StateKind.all.find? (·.name == s)

/-- What a rule does. -/
inductive Action where
  /-- Writes `values` into `channel` of every entity tagged `target`. -/
  | merge (target : String) (channel : Channel) (values : List Float)
      (duration : Ticks) (start : Ticks)
  /-- Summons an entity of `kind` with `tags`, at the first entity tagged `anchor`, if any. -/
  | summon (kind : EntityKind) (tags : List String) (anchor : Option String)
  /-- Sets the state `kind` of every entity tagged `target` from `payload`. -/
  | setState (target : String) (kind : StateKind) (payload : List (String × Json.Value))
  /-- Places a block. -/
  | setBlock (x y z : Int) (blockId : String)
  /-- Runs a command. -/
  | raw (command : String)
deriving Repr, Inhabited

/-- Rounds merge values to single precision, refusing any value that does not stay finite. -/
def singleValues (channel : Channel) (values : List Float) : Except Fault (List Float) :=
  if values.all Binary.isSingleFinite then
    values.mapM fun v => (Binary.toSingle v).mapError fun _ =>
      .refused (channel.name ++ " components must be finite float32 values")
  else .error (.refused (channel.name ++ " components must be finite float32 values"))

/-- A merge of `values` into `channel`: the values are rounded to single precision, must stay
finite, and must be as many as the channel has components. -/
def Action.merge? (target : String) (channel : Channel) (values : List Float)
    (duration start : Ticks) : Except Fault Action := do
  let rounded ← singleValues channel values
  if rounded.length ≠ channel.arity then
    .error (.refused (channel.name ++ " needs " ++ toString channel.arity ++ " components (got " ++
      toString rounded.length ++ ")"))
  else .ok (.merge target channel rounded duration start)

/-- Inserts a tag into a sorted list of distinct tags. -/
def insertTag (t : String) : List String → List String
  | [] => [t]
  | u :: rest => if t < u then t :: u :: rest else if t = u then u :: rest else u :: insertTag t rest

/-- A set of tags: sorted, without repeats. -/
def tagSet (tags : List String) : List String :=
  tags.foldr insertTag []

theorem merge?_values {target : String} {channel : Channel} {values : List Float}
    {duration start : Ticks} {a : Action}
    (h : Action.merge? target channel values duration start = .ok a) :
    ∃ rounded, singleValues channel values = .ok rounded ∧ rounded.length = channel.arity ∧
      a = .merge target channel rounded duration start := by
  unfold Action.merge? at h
  cases hs : singleValues channel values with
  | error e => rw [hs] at h; cases h
  | ok rounded =>
    rw [hs] at h
    simp only [bind, Except.bind] at h
    split at h
    · cases h
    · cases h
      exact ⟨rounded, rfl, by omega, rfl⟩

/-- The one-line label of an action, as traces and logs show it. -/
def Action.describe : Action → String
  | .merge target channel _ _ _ => "merge " ++ channel.name ++ " @" ++ target
  | .summon kind tags _ => "summon " ++ kind.name ++ " [" ++ ",".intercalate tags ++ "]"
  | .setState target kind _ => "state " ++ kind.name ++ " @" ++ target
  | .setBlock x y z blockId =>
    "setblock " ++ toString x ++ " " ++ toString y ++ " " ++ toString z ++ " " ++ blockId
  | .raw command => "raw " ++ command

end Keyframes
