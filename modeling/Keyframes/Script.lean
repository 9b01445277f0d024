import Keyframes.Document
import Keyframes.Json.Show
import Keyframes.Decimal.SingleText

/-!
# Command scripts

A timeline runs as a command script executed on every tick. A scoreboard holder `$name` keeps
the timeline's `timer` and `flags`. The script holds a two-line notice, the every-tick commands,
one line per rule, guarded by `if score $name timer matches OFFSET`, then a blank line, two
reset lines guarded by `timer matches MAX..` (flags to 0, timer to -1) and the line that adds
one to the timer. The tick function starts a timeline's script while its flags are set.

Values are written with `singleText`: the fewest digits that read back as the same
single-precision number, followed by `f` in transformation lists. A text component is passed
through when it already starts like JSON (a quote, a brace or a bracket), else written as a
JSON string; either way it is then quoted with single quotes, backslashes and single quotes
escaped with a backslash.

Main statements: `snbtQuote_plain` (text without backslash or quote is only enclosed) and
`renderTimeline_ok` (the layout of a script whose lines all render).
-/

namespace Keyframes
open Keyframes.Json Keyframes.Decimal

/-- The scoreboard holder of a timeline's registers. -/
def holder (timeline : String) : String := "$" ++ timeline

/-- The guard of a rule at `offset`. -/
def timerGuard (timeline : String) (offset : Nat) : String :=
  "if score " ++ holder timeline ++ " timer matches " ++ toString offset

/-- Transformation values: their texts followed by `f`, separated by commas. -/
def singleList (values : List Float) : Except Fault String := do
  let texts ← values.mapM singleText
  return ",".intercalate (texts.map (· ++ "f"))

/-- Escapes backslashes and single quotes with a backslash. -/
def snbtEscape : List Char → List Char
  | [] => []
  | c :: rest =>
    if c = '\\' then '\\' :: '\\' :: snbtEscape rest
    else if c = '\'' then '\\' :: '\'' :: snbtEscape rest
    else c :: snbtEscape rest

/-- A text in single quotes, escaped. -/
def snbtQuote (s : String) : String :=
  String.ofList ('\'' :: snbtEscape s.toList ++ ['\''])

theorem snbtEscape_plain (cs : List Char) (h : ∀ c ∈ cs, c ≠ '\\' ∧ c ≠ '\'') :
    snbtEscape cs = cs := by
  induction cs with
  | nil => rfl
  | cons c rest ih =>
    have hc := h c List.mem_cons_self
    simp only [snbtEscape, if_neg hc.1, if_neg hc.2]
    rw [ih fun d hd => h d (List.mem_cons_of_mem c hd)]

theorem snbtQuote_plain (s : String) (h : ∀ c ∈ s.toList, c ≠ '\\' ∧ c ≠ '\'') :
    snbtQuote s = String.ofList ('\'' :: s.toList ++ ['\'']) := by
  simp [snbtQuote, snbtEscape_plain _ h]

/-- The value of a key of a payload; a missing key is a fault. -/
def payloadField (payload : List (String × Value)) (key : String) : Except Fault Value :=
  match getField? payload key with
  | some v => .ok v
  | none => .error (.missingKey (Text.quote key))

/-- A text component: the text itself when it starts with a quote, a brace or a bracket, else
its JSON string. Only strings are texts. -/
def textComponent : Value → Except Fault String
  | .str s =>
    match s.toList with
    | c :: _ => if c = '"' ∨ c = '{' ∨ c = '[' then .ok s else .ok (Text.jsonQuote s)
    | [] => .ok (Text.jsonQuote s)
  | .loose cs =>
    match cs with
    | c :: _ =>
      if c = 0x22 ∨ c = 0x7B ∨ c = 0x5B then .ok (Text.ofCodes cs) else .ok (Text.jsonQuoteCodes cs)
    | [] => .ok (Text.jsonQuoteCodes cs)
  | .arr _ => .error (.wrongType "unhashable type: 'list'")
  | .obj _ => .error (.wrongType "unhashable type: 'slice'")
  | v => .error (.wrongType ("'" ++ v.kindName ++ "' object is not subscriptable"))

/-- The command that sets an entity state from a payload. -/
def stateCommand (kind : StateKind) (payload : List (String × Value)) : Except Fault String :=
  match kind with
  | .block => do
    let properties := (getField? payload "properties").getD .null
    let id ← payloadField payload "id"
    let inner := "Name:\"" ++ id.show ++ "\""
    let inner ← if properties.truthy then
        match properties with
        | .obj fields =>
          let props := ",".intercalate (fields.map fun (k, v) => k ++ ":\"" ++ v.show ++ "\"")
          pure (inner ++ ",Properties:\x7b" ++ props ++ "\x7d")
        | v => .error (.noMember ("'" ++ v.kindName ++ "' object has no attribute 'items'"))
      else pure inner
    return "data merge entity @s \x7bblock_state:\x7b" ++ inner ++ "\x7d\x7d"
  | .item => do
    let item ← payloadField payload "item"
    return "item replace entity @s contents with " ++ item.show
  | .text => do
    let text ← payloadField payload "text"
    return "data merge entity @s \x7btext:" ++ snbtQuote (← textComponent text) ++ "\x7d"
  | .position => do
    let offset ← payloadField payload "offset"
    let members ← offset.members
    match ← Geometry.unpack (fun v => do singleText (← v.toFloat)) 3 members with
    | [dx, dy, dz] => return "tp @s ~" ++ dx ++ " ~" ++ dy ++ " ~" ++ dz
    | _ => .error (.tooFewValues 3 0)

/-- The command line of a rule. -/
def renderAction (timeline : String) (offset : Nat) : Action → Except Fault String
  | .merge target channel values duration start => do
    let vs ← singleList values
    return "execute as @e[tag=" ++ target ++ "] " ++ timerGuard timeline offset ++
      " run data merge entity @s \x7bstart_interpolation:" ++ start.text ++
      ",interpolation_duration:" ++ duration.text ++ ",transformation:\x7b" ++ channel.name ++
      ":[" ++ vs ++ "]\x7d\x7d"
  | .summon kind tags anchor =>
    let anchorText := match anchor with
      | some a => if a.isEmpty then "" else "at @e[tag=" ++ a ++ ",limit=1] "
      | none => ""
    .ok ("execute " ++ anchorText ++ timerGuard timeline offset ++ " run summon minecraft:" ++ kind.name ++
      " ~ ~ ~ \x7bTags:[" ++ ",".intercalate (tags.map fun t => "\"" ++ t ++ "\"") ++ "]\x7d")
  | .setState target kind payload => do
    let command ← stateCommand kind payload
    return "execute as @e[tag=" ++ target ++ "] " ++ timerGuard timeline offset ++ " run " ++ command
  | .setBlock x y z blockId =>
    .ok ("execute " ++ timerGuard timeline offset ++ " run setblock " ++ toString x ++ " " ++
      toString y ++ " " ++ toString z ++ " " ++ blockId)
  | .raw command => .ok ("execute " ++ timerGuard timeline offset ++ " run " ++ command)

/-- The two reset lines: once the timer reaches the last offset, clear the flags and set the
timer to -1. -/
def renderReset (timeline : String) (maxOffset : Ticks) : List String :=
  let guard := "execute if score " ++ holder timeline ++ " timer matches " ++ maxOffset.text ++ ".. run"
  [guard ++ " scoreboard players set " ++ holder timeline ++ " flags 0",
   guard ++ " scoreboard players set " ++ holder timeline ++ " timer -1"]

/-- The line that advances the timer. -/
def renderIncrement (timeline : String) : String :=
  "scoreboard players add " ++ holder timeline ++ " timer 1"

/-- The notice at the top of every script. -/
def notice : List String :=
  ["# File generated using DiSPA",
   "# Edit the .dspa source and recompile instead of changing this file."]

/-- The lines of a script, from the lines of its rules. -/
def scriptLines (name : String) (table : RuleTable) (everyTick ruleLines : List String) :
    List String :=
  notice ++ [""] ++ everyTick ++ ruleLines ++ [""] ++ renderReset name table.maxOffset ++
    [renderIncrement name]

/-- The command script of a document. -/
def renderDocument (d : Document) : Except Fault String := do
  let ruleLines ← d.table.rules.mapM fun r => renderAction d.name r.offset r.action
  return String.join ((scriptLines d.name d.table d.everyTick ruleLines).map (· ++ "\n"))

theorem renderTimeline_ok {d : Document} {ruleLines : List String}
    (h : d.table.rules.mapM (fun r => renderAction d.name r.offset r.action) = .ok ruleLines) :
    renderDocument d =
      .ok (String.join ((scriptLines d.name d.table d.everyTick ruleLines).map (· ++ "\n"))) := by
  simp [renderDocument, h, bind, Except.bind, pure, Except.pure]

/-- The start of a timeline's line of the tick function, up to the namespace of the call. -/
def tickCall (timeline : String) : String :=
  "execute if score " ++ holder timeline ++ " flags matches 1.. run function "

/-- The line of the tick function that runs a timeline's script while its flags are set. -/
def tickFunctionLine (timeline space functionPath : String) : String :=
  tickCall timeline ++ space ++ ":" ++ functionPath

/-- A line of the tick function whose namespace and function path are given by code points, as
a configuration gives them. -/
def tickFunctionCodes (timeline : String) (space functionPath : List Nat) : List Nat :=
  Text.codes (tickCall timeline) ++ space ++ [0x3A] ++ functionPath

theorem tickFunctionCodes_codes (timeline space functionPath : String) :
    tickFunctionCodes timeline (Text.codes space) (Text.codes functionPath) =
      Text.codes (tickFunctionLine timeline space functionPath) := by
  simp [tickFunctionCodes, tickFunctionLine, Text.codes]

end Keyframes
