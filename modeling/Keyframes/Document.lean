import Keyframes.Bake

/-!
# Timeline documents

A document is what a rule-table file holds: the timeline name, its rule table and its
every-tick commands. `Document.toJson` writes it: the name under `timeline`, `end_offset` when
there is one, `every_tick` when there are any, and the rules in order, each with its offset and
its action. A merge writes its single-precision values as doubles; a summon its sorted tags and
its anchor when there is one.

Main statement: `toJson_rules` (the rules are written in order, one object each).
-/

namespace Keyframes

/-- A timeline name, its rule table and its every-tick commands. -/
structure Document where
  name : String
  table : RuleTable
  everyTick : List String := []
deriving Inhabited

/-- The document of a baked timeline. -/
def Compiled.document (c : Compiled) : Document :=
  ⟨c.name, c.table, c.everyTick⟩

/-- The JSON form of an action. -/
def Action.toJson : Action → Json.Value
  | .merge target channel values duration start =>
    .obj [("type", .str "merge_transform"), ("target", .str target), ("channel", .str channel.name),
      ("value", .arr (values.map .float)), ("interpolation_duration", duration.toJson),
      ("start_interpolation", start.toJson)]
  | .summon kind tags anchor =>
    .obj ([("type", .str "summon"), ("kind", .str kind.name), ("tags", .arr (tags.map .str))] ++
      (anchor.map fun a => [("at", Json.Value.str a)]).getD [])
  | .setState target kind payload =>
    .obj [("type", .str "set_entity_state"), ("target", .str target), ("state", .str kind.name),
      ("payload", .obj payload)]
  | .setBlock x y z blockId =>
    .obj [("type", .str "set_block"), ("position", .arr [.int x, .int y, .int z]),
      ("block_id", .str blockId)]
  | .raw command => .obj [("type", .str "raw"), ("command", .str command)]

/-- The JSON form of a rule. -/
def Rule.toJson (r : Rule) : Json.Value :=
  .obj [("offset", .int r.offset), ("action", r.action.toJson)]

/-- The JSON form of a document. -/
def Document.toJson (d : Document) : Json.Value :=
  .obj ([("timeline", .str d.name)] ++
    (d.table.endOffset.map fun e => [("end_offset", e.toJson)]).getD [] ++
    (if d.everyTick.isEmpty then [] else [("every_tick", .arr (d.everyTick.map .str))]) ++
    [("rules", .arr (d.table.rules.map Rule.toJson))])

theorem toJson_rules (d : Document) :
    d.toJson.get? "rules" = some (.arr (d.table.rules.map Rule.toJson)) := by
  unfold Document.toJson
  cases d.table.endOffset <;> cases d.everyTick.isEmpty <;>
    simp [Json.Value.get?, Json.getField?]

end Keyframes
