import Keyframes.Config
import Keyframes.Script

/-!
# Building a source tree

A build compiles every source below the configured source folder and writes one command script
for each, at the same place below the target folder with the extension `.mcfunction`, then
rewrites the tick function: one line per script, calling it while its timeline's flags are set.

Sources are the files whose names end in `.dspa`, at any depth, in the order of their path
components (so `a/x.dspa` comes before `a-b/x.dspa`). Every source is compiled and rendered
before anything is written. A source that is refused is recorded and the build goes on; the
faulty lines of all sources are then reported together. A refusal that concerns the whole file
(no usable name, a value that cannot be written) is recorded at its line 1, column 1. Faults
that are not refusals, such as an overflow while writing a number, stop the build at once.

Main statement: `faultLines_line` (a single faulty line is recorded as it is).
-/

namespace Keyframes
open Keyframes.Files

/-- What a build makes of one source. -/
structure Artifact where
  source : PurePath
  target : PurePath
  functionPath : List Nat
  compiled : Compiled
  script : String

/-- Whether one list of path components comes before another: component by component, a
shorter list first when it is a prefix of the other. -/
def partsBefore : List String → List String → Bool
  | [], [] => false
  | [], _ :: _ => true
  | _ :: _, [] => false
  | a :: as, b :: bs => if a < b then true else if a = b then partsBefore as bs else false

/-- Whether a file's components below the source folder name a source. -/
def isSource (rel : List String) : Bool :=
  (rel.getLast?.getD "").endsWith ".dspa"

variable {m : Type → Type} [Monad m] [Host m]

/-- The sources below a folder, in the order of their components. -/
def findSources (folder : PurePath) : ExceptT Fault m (List PurePath) := do
  unless ← isDirectory folder do
    throw (.badInput ("source folder not found: " ++ folder.shownText))
  let found := (← ExceptT.lift (Host.filesBelow folder)).filter isSource
  return (found.mergeSort fun a b => !partsBefore b a).map fun rel =>
    ⟨folder.root, folder.parts ++ rel⟩

/-- The faulty lines that a fault records against a source, when the fault is a refusal. -/
def faultLines (source : PurePath) : Fault → Option (List LineError)
  | .lines es => some es
  | .line e => some [e]
  | f => if f.refusesValue then some [⟨source.shownText, 1, 1, f.message⟩] else none

theorem faultLines_line (source : PurePath) (e : LineError) :
    faultLines source (.line e) = some [e] := rfl

/-- Compiles a source and renders its command script. -/
def compileSource (source : PurePath) : ExceptT Fault m (Compiled × String) := do
  let c ← compileFile source
  let script ← ofResult (renderDocument c.document)
  return (c, script)

/-- What a build makes of a source that compiled: its script goes to the same place below the
target folder, with the extension `.mcfunction`. -/
def Artifact.of (sourceRoot targetRoot source : PurePath) (made : Compiled × String) : Artifact :=
  let relative := (source.relativeTo? sourceRoot).getD source
  { source
    target := targetRoot.join (relative.withSuffix ".mcfunction")
    functionPath := (targetRoot.join (relative.withSuffix "")).codes
    compiled := made.1
    script := made.2 }

/-- Compiles sources in order, keeping what each makes and the faulty lines of those that are
refused. -/
def compileEach (sourceRoot targetRoot : PurePath) :
    List PurePath → ExceptT Fault m (List Artifact × List LineError)
  | [] => pure ([], [])
  | source :: rest => do
    let here : List Artifact × List LineError ←
      match ← ExceptT.lift (compileSource source).run with
      | .ok made => pure ([Artifact.of sourceRoot targetRoot source made], [])
      | .error f =>
        match faultLines source f with
        | some es => pure ([], es)
        | none => throw f
    let (artifacts, errors) ← compileEach sourceRoot targetRoot rest
    return (here.1 ++ artifacts, here.2 ++ errors)

/-- Compiles every source of the configuration; fails with all faulty lines if any source is
refused. -/
def compileTree (config : Config) : ExceptT Fault m (List Artifact) := do
  let sourceRoot := PurePath.ofCodes config.sourceFolder
  let sources ← findSources sourceRoot
  let (artifacts, errors) ← compileEach sourceRoot (PurePath.ofCodes config.targetFolder) sources
  if errors.isEmpty then return artifacts else throw (.lines errors)

/-- Writes the command scripts, logging each. -/
def writeScripts (level : Level) : List Artifact → ExceptT Fault m Unit
  | [] => pure ()
  | a :: rest => do
    makeDirAll (PurePath.parent a.target)
    writeText a.target a.script
    logAt level "build" .info ("Compiled file: " ++ Text.ofCodes a.functionPath)
    writeScripts level rest

/-- Writes the command scripts and rewrites the tick function. -/
def writeOutputs (level : Level) (artifacts : List Artifact) (config : Config) :
    ExceptT Fault m Unit := do
  let tickLines := artifacts.map fun a => tickFunctionCodes a.compiled.name config.space a.functionPath
  writeScripts level artifacts
  let tickPath := PurePath.ofCodes config.tickFunction
  makeDirAll (PurePath.parent tickPath)
  writeCodes tickPath (tickLines.flatMap (· ++ [0x0A]))

end Keyframes
