import Keyframes.Files.Load
import Keyframes.Json.Write
import Keyframes.Log

/-!
# The compiler's configuration

Where the sources are, where the command scripts go, where the tick function is written, and
the namespace its function calls use. The configuration file is a JSON object with these four
keys, each a non-empty text; a missing key takes its default and an unknown key is refused.
When the file is missing, the defaults are written to it. A setting is kept by its code points,
since a file may give it with lone surrogates.

Main statement: `ofJson_empty` (an empty object is the default configuration).
-/

namespace Keyframes
open Keyframes.Json Keyframes.Files

/-- The compiler's configuration. -/
structure Config where
  sourceFolder : List Nat := Text.codes "./src"
  targetFolder : List Nat := Text.codes "./objects"
  tickFunction : List Nat := Text.codes "./tick.mcfunction"
  space : List Nat := Text.codes "de"
deriving Repr, BEq, DecidableEq, Inhabited

/-- The keys of a configuration file, in the order they are written. -/
def Config.keys : List String := ["source_folder", "target_folder", "tick_function", "namespace"]

/-- The JSON form of a configuration. -/
def Config.toJson (c : Config) : Value :=
  .obj [("source_folder", .ofCodes c.sourceFolder), ("target_folder", .ofCodes c.targetFolder),
    ("tick_function", .ofCodes c.tickFunction), ("namespace", .ofCodes c.space)]

/-- The text of the default configuration file. -/
def Config.defaultText : String :=
  (Config.toJson {}).writeIndented 4 ++ "\n"

/-- The configuration with one key set. -/
def Config.set (c : Config) (key : String) (value : List Nat) : Config :=
  if key = "source_folder" then { c with sourceFolder := value }
  else if key = "target_folder" then { c with targetFolder := value }
  else if key = "tick_function" then { c with tickFunction := value }
  else if key = "namespace" then { c with space := value }
  else c

/-- Sets the keys of a configuration in order; each value must be a text with more than
blanks. -/
def Config.setAll (c : Config) : List (String × Value) → Except Fault Config
  | [] => .ok c
  | (key, value) :: rest =>
    match value.codes? with
    | some cs =>
      if (Text.trim (Text.ofCodes cs).toList).isEmpty then
        .error (.badInput (key ++ " must be a non-empty string"))
      else (c.set key cs).setAll rest
    | none => .error (.badInput (key ++ " must be a non-empty string"))

/-- The configuration a JSON document states. -/
def Config.ofJson (raw : Value) : Except Fault Config :=
  match raw.fields? with
  | some fields =>
    let unknown := (fields.map (·.1)).filter (fun k => !Config.keys.contains k)
    if unknown.isEmpty then ({} : Config).setAll fields
    else .error (.badInput ("unknown config keys: " ++
      ", ".intercalate (unknown.mergeSort fun a b => !decide (b < a))))
  | _ => .error (.badInput "config root must be a JSON object")

theorem ofJson_empty : Config.ofJson (.obj []) = .ok {} := rfl

/-- How deep a configuration document may nest when it is loaded by itself, under eight calls.
A command that loads it from further down has less room (`Cli.compileNesting`). -/
def Config.nesting : Nat := Json.nestingLimit 8

variable {m : Type → Type} [Monad m] [Host m]

/-- Loads the configuration from a file, writing the defaults there first when nothing is
there; the document's arrays and objects nest at most `limit` deep. -/
def loadConfig (level : Level) (limit : Nat) (p : PurePath) : ExceptT Fault m Config := do
  match ← entryAt p with
  | .missing =>
    writeText p Config.defaultText
    logAt level "config" .info ("Wrote default config to " ++ p.shownText)
    pure {}
  | .directory => throw (.badInput ("not a file: " ++ p.shownText))
  | .file =>
    let text ← readText p
    match Json.read limit text with
    | .ok v => ofResult (Config.ofJson v)
    | .error e => throw (invalidJson text e)

end Keyframes
