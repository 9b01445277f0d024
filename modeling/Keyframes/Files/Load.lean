import Keyframes.Files.Host
import Keyframes.Json.Read
import Keyframes.Source.Program
import Keyframes.Bake
import Keyframes.Document.Read

/-!
# Loading files

Reading the inputs of the commands from files: a JSON document, a source program, a compiled
program, a rule-table document. A path must lead to a file: nothing there is `file not found`,
a directory is `not a file`. A document that is not JSON is reported with the reader's message
and its line and column; one that nests too deep is a fault of its own, not a bad input.

Main statement: `invalidJson_isBadInput` (a malformed document is a bad input).
-/

namespace Keyframes.Files

variable {m : Type → Type} [Monad m] [Host m]

/-- An operation that has already succeeded or failed. -/
def ofResult {α : Type} (x : Except Fault α) : ExceptT Fault m α :=
  ExceptT.mk (pure x)

/-- The fault of a document that is not JSON, or that nests too deep to read. -/
def invalidJson (doc : String) : Json.ReadError → Fault
  | .malformed message position =>
    let (line, column) := Json.lineColumn doc position
    .badInput ("invalid JSON: " ++ message ++ " (line " ++ toString line ++ ", col " ++
      toString column ++ ")")
  | e@(.tooDeep _) => .tooDeep e.message

theorem invalidJson_isBadInput (doc message : String) (position : Nat) :
    (invalidJson doc (.malformed message position)).isBadInput := rfl

/-- The text of an input file, which must be there and be a file. -/
def readInput (p : PurePath) : ExceptT Fault m String := do
  match ← entryAt p with
  | .missing => throw (.badInput ("file not found: " ++ p.shownText))
  | .directory => throw (.badInput ("not a file: " ++ p.shownText))
  | .file => readText p

/-- Reads a JSON document from a file; its arrays and objects nest at most `limit` deep. -/
def readJsonFile (limit : Nat) (p : PurePath) : ExceptT Fault m Json.Value := do
  let text ← readInput p
  match Json.read limit text with
  | .ok v => pure v
  | .error e => throw (invalidJson text e)

/-- Reads a source program from a file; its lines are reported under the path's text. -/
def parseFile (p : PurePath) : ExceptT Fault m Source.Program := do
  let text ← readInput p
  ofResult (Source.parseSource text p.shownText)

/-- Compiles the source program in a file. -/
def compileFile (p : PurePath) : ExceptT Fault m Compiled := do
  ofResult (compileProgram (← parseFile p))

/-- Reads a rule-table document from a file; its arrays and objects nest at most `limit`
deep. -/
def loadTimeline (limit : Nat) (p : PurePath) : ExceptT Fault m Document := do
  ofResult (Document.ofJson (← readJsonFile limit p))

end Keyframes.Files
