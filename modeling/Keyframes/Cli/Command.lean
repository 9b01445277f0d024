import Keyframes.Build
import Keyframes.Play.Trace
import Keyframes.Cli.Options

/-!
# The commands

* `compile [--config PATH]` loads the configuration (writing the defaults when the file is
  missing), builds the source tree, writes the scripts and the tick function, and names each
  script compiled.
* `play (--source PATH | --table PATH) [--ticks N] [--start-timer N] [--only-active]
  [--events-out PATH]` plays one timeline from a source or a rule-table file and prints the
  trace; the event stream may be written as JSON.
* `table --source PATH [--out PATH]` prints (or writes) the rule table of a source as JSON.

A bad input (a faulty source, a file that is not there or not valid) is reported on the
standard error as `ERROR: …` with status 2; other faults end the run.

Main statement: `run_usage` (a line that does not parse ends with a usage error, touching
nothing).
-/

namespace Keyframes.Cli
open Keyframes.Files Keyframes.Play Keyframes.Json

/-- How a run of the command line ends. -/
inductive Exit where
  | code (n : Nat)
  | usage
  /-- Help was asked for: the text shown. -/
  | help (text : String)
deriving Repr, BEq, DecidableEq

/-- Whether an optional text is given and not empty. -/
def isSet (t : Option (List Nat)) : Bool :=
  (t.map fun s => !s.isEmpty).getD false

/-- The log threshold a level option names; an empty list names none. -/
def thresholdOf : Given → Except Fault Level
  | .text name =>
    match Level.ofName? (Text.ofCodes name) with
    | some l => .ok l
    | none => .error (.refused ("Unknown level: " ++ Text.quoteCodes name))
  | .empty => .error (.wrongType "Level not an integer or a valid string: []")
  | _ => .error (.wrongType "Level not an integer or a valid string")

variable {m : Type → Type} [Monad m] [Host m]

/-- Reports a bad input on the standard error and gives status 2; passes other faults on. -/
def reportBadInput (lead : String) (f : Fault) : ExceptT Fault m Nat :=
  if f.isBadInput then do
    say .err (lead ++ f.message)
    pure 2
  else throw f

/-- How deep the configuration file of `compile` may nest: it is loaded two calls further down
than a configuration loaded by itself, under the command line and the command. -/
def compileNesting : Nat := Json.nestingLimit 10

/-- How deep the rule-table file of `play` may nest: it is read under the command line, the
command, the choice of document and two calls of loading. -/
def playNesting : Nat := Json.nestingLimit 12

/-- Loads the configuration and builds the source tree, writing nothing yet. -/
def prepareBuild (level : Level) (configPath : PurePath) :
    ExceptT Fault m (Config × List Artifact) := do
  let config ← loadConfig level compileNesting configPath
  let artifacts ← compileTree config
  return (config, artifacts)

/-- Names each script compiled. -/
def announce : List Artifact → ExceptT Fault m Unit
  | [] => pure ()
  | a :: rest => do
    say .out ("Successfully compiled file: " ++ Text.ofCodes a.functionPath)
    announce rest

/-- The `compile` command. -/
def compileCommand (level : Level) (configPath : List Nat) : ExceptT Fault m Nat := do
  match ← ExceptT.lift (prepareBuild level (PurePath.ofCodes configPath)).run with
  | .error f => reportBadInput "ERROR: " f
  | .ok (config, artifacts) =>
    writeOutputs level artifacts config
    announce artifacts
    if artifacts.isEmpty then
      say .out ("(No " ++ Text.ofCodes config.sourceFolder ++ "/**/*.dspa files found.)")
    pure 0

/-- The document `play` reads: the compiled source, or the rule-table file. -/
def loadDocument (o : PlayOptions) : ExceptT Fault m Document :=
  if isSet o.source then do
    let c ← compileFile (PurePath.ofCodes (o.source.getD []))
    pure c.document
  else loadTimeline playNesting (PurePath.ofCodes (o.table.getD []))

/-- The log lines of the resets among playback events. -/
def resetLines (level : Level) : List Event → ExceptT Fault m Unit
  | [] => pure ()
  | e :: rest => do
    match e.fact with
    | .timelineReset timer maxOffset =>
      let timerText := match timer.toInt with
        | .ok n => toString n
        | .error _ => timer.show
      logAt level "player" .debug ("timeline " ++ e.timeline.getD "None" ++ " reset at timer=" ++
        timerText ++ " (max_offset=" ++ toString maxOffset.toNat ++ ")")
    | _ => pure ()
    resetLines level rest

/-- The `play` command. -/
def playCommand (level : Level) (o : PlayOptions) : ExceptT Fault m Nat := do
  if (if isSet o.source then 1 else 0) + (if isSet o.table then 1 else 0) ≠ 1 then
    say .err "ERROR: choose exactly one of --source or --table."
    return 2
  let ticks ← match o.ticks with
    | .int n => pure n
    | _ => throw (.wrongType "'<' not supported between instances of 'list' and 'int'")
  if ticks < 0 then
    say .err "ERROR: --ticks must be >= 0."
    return 2
  match ← ExceptT.lift (loadDocument o).run with
  | .error f => reportBadInput "ERROR: invalid input: " f
  | .ok d =>
    let player := ({} : Player).register d.name d.table
    let player ← match o.startTimer with
      | none => pure player
      | some (.int n) => pure (player.setRegisters d.name { player.registersOf d.name with timer := .int n })
      | some _ => throw (.wrongType
          "int() argument must be a string, a bytes-like object or a real number, not 'list'")
    unless d.everyTick.isEmpty do
      logAt level "cli" .info (d.name ++ ": " ++ toString d.everyTick.length ++
        " every-tick raw command(s) are not played")
    let (r, after) := (runTraced ticks.toNat).run.run player
    let log ← ofResult r
    resetLines level after.events
    ExceptT.lift (Host.emit .out (renderTrace log o.onlyActive))
    if isSet o.eventsOut then
      writeText (PurePath.ofCodes (o.eventsOut.getD []))
        ((Value.arr (after.events.map Event.toJson)).writeIndented 2 ++ "\n")
    return 0

/-- The `table` command. -/
def tableCommand (source : List Nat) (out : Option (List Nat)) : ExceptT Fault m Nat := do
  match ← ExceptT.lift (compileFile (PurePath.ofCodes source)).run with
  | .error f => reportBadInput "ERROR: " f
  | .ok c =>
    let text := c.document.toJson.writeIndented 2 ++ "\n"
    if isSet out then writeText (PurePath.ofCodes (out.getD [])) text
    else ExceptT.lift (Host.emit .out text)
    return 0

/-- Runs a parsed command line. -/
def runInvocation (inv : Invocation) : ExceptT Fault m Nat := do
  let level ← ofResult (thresholdOf inv.logLevel)
  match inv.command with
  | .compile config => compileCommand level config
  | .play o => playCommand level o
  | .table source out => tableCommand source out

/-- Runs a command line. -/
def run (args : List Arg) : ExceptT Fault m Exit :=
  match parseCommandLine args with
  | .error .usage => pure .usage
  | .error (.help text) => pure (.help text)
  | .ok inv => Exit.code <$> runInvocation inv

theorem run_usage (args : List Arg) (h : parseCommandLine args = .error .usage) :
    (run args : ExceptT Fault m Exit) = pure .usage := by
  simp [run, h]

end Keyframes.Cli
