import Keyframes.Cli.Command

/-!
# The program

The commands of `Keyframes.Cli` run on the real system: paths are read from the working
directory, the standard output and error are the outputs, and log records go to the standard
error. This module is the only one that performs input and output; everything it runs is
defined, and can be reasoned about, over the pure host.
-/

namespace Keyframes.Cli
open Keyframes.Files

/-- The number the system gave a failed operation, if it gave one. -/
def errorNumber : IO.Error → Option Nat
  | .alreadyExists _ code _ | .otherError code _ | .resourceBusy code _
  | .resourceVanished code _ | .unsupportedOperation code _ | .hardwareFault code _
  | .unsatisfiedConstraints code _ | .illegalOperation code _ | .protocolError code _
  | .timeExpired code _ | .interrupted _ code _ | .noFileOrDirectory _ code _
  | .invalidArgument _ code _ | .permissionDenied _ code _ | .resourceExhausted _ code _
  | .inappropriateType _ code _ | .noSuchThing _ code _ => some code.toNat
  | _ => none

/-- The fault of a failed file operation at a path. -/
def faultOfError (shown : List Nat) (e : IO.Error) : Fault :=
  match errorNumber e with
  | some 2 => .file .notFound shown
  | some 17 => .file .alreadyExists shown
  | some 20 => .file .notADirectory shown
  | some 21 => .file .isADirectory shown
  | some 36 => .file .nameTooLong shown
  | some n => .file (.other n (toString e)) shown
  | none => .file (.other 0 (toString e)) shown

/-- The files below a directory entry, each as its components after `start`. -/
partial def filesUnder (entry : IO.FS.DirEntry) (start : List String) : IO (List (List String)) := do
  let here := start ++ [entry.fileName]
  if ← entry.path.isDir then
    let mut found : List (List String) := []
    for e in ← entry.path.readDir do
      found := found ++ (← filesUnder e here)
    return found
  else return [here]

instance : Host IO where
  entry p := do
    if (conversionFault? p).isSome then return .ok .missing
    if let some f := lengthFault? p then return .error f
    if p.parts.any (fun c => componentLimit < nameBytes (PurePath.componentCodes c.toList)) then
      return .error (.file .nameTooLong p.codes)
    let path := (← IO.currentDir) / p.shownText
    if ← path.isDir then return .ok .directory
    else if ← path.pathExists then return .ok .file
    else return .ok .missing
  readFile p := do
    if let some f := nameFault? p then return .error f
    try return .ok (← IO.FS.readFile ((← IO.currentDir) / p.shownText))
    catch e => return .error (faultOfError p.codes e)
  writeFile p text := do
    if let some f := nameFault? p then return .error f
    try return .ok (← IO.FS.writeFile ((← IO.currentDir) / p.shownText) text)
    catch e => return .error (faultOfError p.codes e)
  makeDir p := do
    if let some f := nameFault? p then return .error f
    try return .ok (← IO.FS.createDir ((← IO.currentDir) / p.shownText))
    catch e => return .error (faultOfError p.codes e)
  filesBelow p := do
    try
      let mut found : List (List String) := []
      for e in ← ((← IO.currentDir) / p.shownText).readDir do
        found := found ++ (← filesUnder e [])
      return found
    catch _ => return []
  emit o text :=
    match o with
    | .out => IO.print text
    | .err | .log => IO.eprint text

/-- The summary of the command line shown with a usage error. -/
def usageText : String :=
  "usage: [-h] [--log-level {DEBUG,INFO,WARNING,ERROR,CRITICAL}] {compile,play,table} ..."

end Keyframes.Cli

/-- Runs the command line and gives its status: that of the command, 2 for a usage error, 1
for a fault that ended the run. -/
def main (args : List String) : IO UInt32 := do
  match ← (Keyframes.Cli.run (args.map Keyframes.Cli.Arg.ofString) :
      ExceptT Keyframes.Fault IO Keyframes.Cli.Exit).run with
  | .ok (.code n) => return n.toUInt32
  | .ok .usage =>
    IO.eprintln Keyframes.Cli.usageText
    return 2
  | .ok (.help text) =>
    IO.print text
    return 0
  | .error f =>
    IO.eprintln ("error: " ++ f.message)
    return 1
