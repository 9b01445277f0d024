import Keyframes.Source.Line
import Keyframes.Text.Lines

/-!
# Reading a source

A source is read line by line, and every line is read even after a faulty one: either all
lines are sound and the program holds their statements in order, or the source fails with the
faults of all faulty lines, in line order. A second object line is a fault too, at the column
of its first non-blank character; it names the line of the first. A fault that escapes the
checks of a line (`LineFault.escapes`) ends the reading there, with that fault alone.

Main statement: `parseSource_empty` (an empty source is an empty program).
-/

namespace Keyframes.Source
open Keyframes.Text

/-- The statements of a source file. -/
structure Program where
  path : String
  statements : List Statement
deriving Repr, Inhabited

/-- What reading has gathered so far: statements and faults (both reversed), and the line of
the object statement, once there is one. -/
structure Reading where
  statements : List Statement := []
  faults : List LineError := []
  objectLine : Option Nat := none

/-- Takes in the outcome of line `number`; a fault that is no line error ends the reading. -/
def Reading.take (path : String) (r : Reading) (number : Nat) (line : List Char)
    (outcome : Except Fault (Option Statement)) : Except Fault Reading :=
  match outcome with
  | .error (.line e) => .ok { r with faults := e :: r.faults }
  | .error f => .error f
  | .ok none => .ok r
  | .ok (some s@(.objectName _ _)) =>
    match r.objectLine with
    | some k =>
      let column := leadingBlanks line + 1
      .ok { r with faults := (LineFault.objectRedeclared k).at path number column :: r.faults }
    | none => .ok { r with statements := s :: r.statements, objectLine := some number }
  | .ok (some s) => .ok { r with statements := s :: r.statements }

/-- Reads every line of a source. -/
def readLines (path : String) (lines : List (List Char)) : Except Fault Reading :=
  ((List.range lines.length).zip lines).foldlM
    (fun r (i, line) => r.take path (i + 1) line (readLine path (i + 1) (String.ofList line))) {}

/-- Reads a source: its program, or the faults of all faulty lines. -/
def parseSource (source : String) (path : String) : Except Fault Program := do
  let r ← readLines path (lines source.toList)
  if r.faults.isEmpty then .ok ⟨path, r.statements.reverse⟩
  else .error (.lines r.faults.reverse)

theorem parseSource_empty (path : String) : parseSource "" path = .ok ⟨path, []⟩ := rfl

end Keyframes.Source
