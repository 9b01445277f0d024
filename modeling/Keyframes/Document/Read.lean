import Keyframes.Document
import Keyframes.Json.Show

/-!
# Reading timeline documents

`Document.ofJson` checks a JSON value against the document schema, in a fixed order, and the
first failing check gives the message:

* the root is an object; `timeline` is a string with a non-blank character; `end_offset` is
  absent, null, or an integer (a truth value counts) that is not negative; `every_tick` is absent
  or an array of strings with a non-blank character; `rules` is an array;
* every rule is an object with an integer `offset` (a truth value does not count) that is not
  negative and an object `action`, which must be valid for its `type`.

An action's messages name it `rules[i].action`. A merge needs a target, a channel, numbers
that stay finite in single precision (as many as the channel has components) and durations that
are integers, not negative; a summon a kind, a non-empty array of non-empty tags and perhaps an
anchor; an entity state a target, a state kind and perhaps an object payload; a block
placement three integers and a block id; a raw command its command. A string that holds lone
surrogates serves where a string does, each lone unit read as the replacement character.

Main statement: `ofJson_notObject` (a value that is not an object is refused).
-/

namespace Keyframes
open Keyframes.Json

/-- A validation failure. -/
def refuse {α : Type} (message : String) : Except Fault α :=
  .error (.badInput message)

/-- A field that must be a string with a non-blank character, refused with `message`. -/
def filledField (fields : List (String × Value)) (key message : String) : Except Fault String :=
  match (getField? fields key).bind Value.text? with
  | some s => if (Text.trimString s).isEmpty then refuse message else .ok s
  | none => refuse message

/-- A text field of an action. -/
def requireText (fields : List (String × Value)) (key label : String) : Except Fault String :=
  filledField fields key (label ++ "." ++ key ++ " must be a non-empty string")

/-- Whether a value is a number (a truth value is not). -/
def isNumberValue : Value → Bool
  | .int _ | .float _ => true
  | _ => false

/-- Whether a number stays finite once rounded to single precision. -/
def staysSingleFinite (v : Value) : Bool :=
  match v.isSingleFinite with
  | .ok b => b
  | .error _ => false

/-- A field that must be an array of numbers that stay finite in single precision. -/
def requireNumbers (fields : List (String × Value)) (key label : String) :
    Except Fault (List Float) :=
  match getField? fields key with
  | some (.arr items) =>
    if !items.all isNumberValue then refuse (label ++ "." ++ key ++ " must be an array of numbers")
    else if !items.all staysSingleFinite then
      refuse (label ++ "." ++ key ++ " must hold finite float32 values")
    else items.mapM Value.toFloat
  | _ => refuse (label ++ "." ++ key ++ " must be an array of numbers")

/-- A tick count field with a default: an integer or a truth value, not negative. -/
def requireTicks (fields : List (String × Value)) (key label : String) (default : Nat) :
    Except Fault Ticks :=
  match (getField? fields key).getD (.int default) with
  | .int n => if n < 0 then refuse (label ++ "." ++ key ++ " must be an int >= 0") else .ok (.num n.toNat)
  | .bool b => .ok (.flag b)
  | _ => refuse (label ++ "." ++ key ++ " must be an int >= 0")

/-- The name a field holds, looked up among names; `none` for anything else. -/
def nameIn {α : Type} (lookup : String → Option α) : Option Value → Option α
  | some (.str s) => lookup s
  | _ => none

/-- A field that must hold one of a closed set of names, refused with `message`. -/
def namedField {α : Type} (lookup : String → Option α) (fields : List (String × Value))
    (key message : String) : Except Fault α :=
  match nameIn lookup (getField? fields key) with
  | some a => .ok a
  | none => refuse message

/-- A tag: a string that is not empty. -/
def tagOfJson? (t : Value) : Option String :=
  match t.text? with
  | some s => if s.isEmpty then none else some s
  | none => none

/-- Reads the tags of a summon: a non-empty array of non-empty strings. -/
def tagsOfJson (fields : List (String × Value)) (label : String) : Except Fault (List String) :=
  match getField? fields "tags" with
  | some (.arr items@(_ :: _)) =>
    match items.mapM tagOfJson? with
    | some tags => .ok tags
    | none => refuse (label ++ ".tags must be a non-empty array of strings")
  | _ => refuse (label ++ ".tags must be a non-empty array of strings")

/-- Reads the anchor of a summon: absent, null, or a string with a non-blank character. -/
def anchorOfJson (fields : List (String × Value)) (label : String) :
    Except Fault (Option String) :=
  match getField? fields "at" with
  | none | some .null => .ok none
  | some v =>
    match v.text? with
    | some s =>
      if (Text.trimString s).isEmpty then
        refuse (label ++ ".at must be a non-empty string when provided")
      else .ok (some s)
    | none => refuse (label ++ ".at must be a non-empty string when provided")

/-- Reads the payload of an entity state: absent, which is the empty object, or an object. -/
def payloadOfJson (fields : List (String × Value)) (label : String) :
    Except Fault (List (String × Value)) :=
  match ((getField? fields "payload").getD (.obj [])).fields? with
  | some payload => .ok payload
  | none => refuse (label ++ ".payload must be an object")

/-- Reads the position of a block placement: an array of exactly three integers. -/
def positionOfJson (fields : List (String × Value)) (label : String) :
    Except Fault (Int × Int × Int) :=
  match getField? fields "position" with
  | some (.arr [.int x, .int y, .int z]) => .ok (x, y, z)
  | _ => refuse (label ++ ".position must be an array of three ints")

/-- Reads an action. -/
def Action.ofJson (fields : List (String × Value)) (label : String) : Except Fault Action :=
  match getField? fields "type" with
  | some (.str "merge_transform") => do
    let target ← requireText fields "target" label
    let channel ← namedField Channel.ofName? fields "channel"
      (label ++ ".channel must be one of: " ++ ", ".intercalate (Channel.all.map (·.name)))
    let values ← requireNumbers fields "value" label
    let duration ← requireTicks fields "interpolation_duration" label 0
    let start ← requireTicks fields "start_interpolation" label 0
    (Action.merge? target channel values duration start).mapError fun e =>
      .badInput (label ++ ": " ++ e.message)
  | some (.str "summon") => do
    let kind ← namedField EntityKind.ofName? fields "kind"
      (label ++ ".kind must be one of: " ++ ", ".intercalate (EntityKind.all.map (·.name)))
    let tags ← tagsOfJson fields label
    let anchor ← anchorOfJson fields label
    return .summon kind (tagSet tags) anchor
  | some (.str "set_entity_state") => do
    let target ← requireText fields "target" label
    let kind ← namedField StateKind.ofName? fields "state"
      (label ++ ".state must be one of: " ++ ", ".intercalate (StateKind.all.map (·.name)))
    return .setState target kind (← payloadOfJson fields label)
  | some (.str "set_block") => do
    let (x, y, z) ← positionOfJson fields label
    return .setBlock x y z (← requireText fields "block_id" label)
  | some (.str "raw") => do
    return .raw (← requireText fields "command" label)
  | kind => refuse (label ++ ".type is not a valid action type: " ++ (kind.getD .null).repr)

/-- Reads the offset of a rule: an integer (a truth value does not count) that is not
negative. -/
def offsetOfJson (fields : List (String × Value)) (label : String) : Except Fault Nat :=
  match getField? fields "offset" with
  | some (.int n) => if n < 0 then refuse (label ++ ".offset must be an int >= 0") else .ok n.toNat
  | _ => refuse (label ++ ".offset must be an int >= 0")

/-- Reads a rule, which messages name `label`: an object with an offset and an action. -/
def ruleOfJson (label : String) (item : Value) : Except Fault Rule := do
  let some fields := item.fields? | refuse (label ++ " must be an object")
  let offset ← offsetOfJson fields label
  let some actionFields := ((getField? fields "action").getD .null).fields?
    | refuse (label ++ ".action must be an object")
  return ⟨offset, ← Action.ofJson actionFields (label ++ ".action")⟩

/-- Reads the rules from position `i` on. -/
def rulesOfJson (i : Nat) : List Value → Except Fault (List Rule)
  | [] => .ok []
  | item :: rest => do
    let r ← ruleOfJson ("rules[" ++ toString i ++ "]") item
    return r :: (← rulesOfJson (i + 1) rest)

/-- Whether every item is a string with a non-blank character. -/
def allCommands : List Value → Option (List String)
  | [] => some []
  | v :: rest =>
    match v.text? with
    | some s => if (Text.trimString s).isEmpty then none else (allCommands rest).map (s :: ·)
    | none => none

/-- Reads the timeline name: a string with a non-blank character. -/
def nameOfJson (fields : List (String × Value)) : Except Fault String :=
  filledField fields "timeline" "timeline must be a non-empty string"

/-- Reads the end offset: absent, null, an integer that is not negative, or a truth value. -/
def endOffsetOfJson (fields : List (String × Value)) : Except Fault (Option Ticks) :=
  match getField? fields "end_offset" with
  | none | some .null => .ok none
  | some (.int n) => if n < 0 then refuse "end_offset must be an int >= 0 when provided" else .ok (some (Ticks.num n.toNat))
  | some (.bool b) => .ok (some (Ticks.flag b))
  | _ => refuse "end_offset must be an int >= 0 when provided"

/-- Reads the every-tick commands: absent, or an array of strings with a non-blank character. -/
def everyTickOfJson (fields : List (String × Value)) : Except Fault (List String) :=
  match (getField? fields "every_tick").getD (.arr []) with
  | .arr items =>
    match allCommands items with
    | some commands => .ok commands
    | none => refuse "every_tick must be an array of non-empty strings"
  | _ => refuse "every_tick must be an array of non-empty strings"

/-- Reads a document from JSON. -/
def Document.ofJson (raw : Value) : Except Fault Document := do
  let some fields := raw.fields? | refuse "root must be a JSON object"
  let name ← nameOfJson fields
  let endOffset ← endOffsetOfJson fields
  let everyTick ← everyTickOfJson fields
  let .arr items := (getField? fields "rules").getD .null | refuse "rules must be an array"
  let rules ← rulesOfJson 0 items
  return ⟨name, ⟨rules, endOffset⟩, everyTick⟩

theorem ofJson_notObject (raw : Value) (h : raw.fields? = none) :
    Document.ofJson raw = .error (.badInput "root must be a JSON object") := by
  unfold Document.ofJson
  rw [h]
  rfl

end Keyframes
