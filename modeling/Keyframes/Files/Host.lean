import Keyframes.Path
import Keyframes.Text.Surrogate

/-!
# The host: files and output

The commands of this library reach the world through one class, `Host`: what a path leads to,
reading and writing a file, making one directory, listing the files below a directory, and
writing text to an output. A program is written once, over any monad with a `Host` instance,
and runs both on the pure tree of `Keyframes.Files.Tree` (where it can be reasoned about) and
on the real file system.

On top of the primitives this module builds what the commands use: whether a path is a file or
a directory, reading a text with its line ends made uniform, and making a directory with all
its parents.

Main statement: `uniformNewlines_noReturn` (text without carriage returns reads as it is).
-/

namespace Keyframes.Files

/-- What a path leads to. -/
inductive Entry where
  | missing
  | file
  | directory
deriving Repr, BEq, DecidableEq

/-- Where text output goes: the standard output, the standard error, or the log. -/
inductive Output where
  | out
  | err
  | log
deriving Repr, BEq, DecidableEq

/-- The operations a command needs from the world it runs in. -/
class Host (m : Type → Type) where
  /-- What the path leads to; `missing` also when a component on the way is not a directory.
  A path too long for the system is a fault. -/
  entry : PurePath → m (Except Fault Entry)
  /-- The text of a file. -/
  readFile : PurePath → m (Except Fault String)
  /-- Writes a file, creating or replacing it. -/
  writeFile : PurePath → String → m (Except Fault Unit)
  /-- Makes one directory, whose parent must exist. -/
  makeDir : PurePath → m (Except Fault Unit)
  /-- The files at any depth below a directory, each as its components below it. -/
  filesBelow : PurePath → m (List (List String))
  /-- Writes text to an output. -/
  emit : Output → String → m Unit

/-- The number of bytes a code point takes in a file name: its UTF-8 length, and one byte for
each of the units `0xDC80` to `0xDCFF`, which stand for single bytes. -/
def nameByteCount (n : Nat) : Nat :=
  if n < 0x80 then 1
  else if n < 0x800 then 2
  else if 0xDC80 ≤ n ∧ n ≤ 0xDCFF then 1
  else if n < 0x10000 then 3
  else 4

/-- The number of bytes of a name given by code points. -/
def nameBytes (cs : List Nat) : Nat :=
  cs.foldr (fun c n => nameByteCount c + n) 0

/-- The most bytes a path may have. -/
def pathLimit : Nat := 4095

/-- The most bytes a component of a path may have. -/
def componentLimit : Nat := 255

/-- The fault of a path that cannot be given to the file system at all: a lone surrogate other
than those standing for single bytes (`Text.unencodableName?`), or else a null character.
Nothing is found at such a path, and nothing can be read, written or made there. -/
def conversionFault? (p : PurePath) : Option Fault :=
  match Text.unencodableName? p.codes with
  | some (unit, position, count) => some (.unencodable unit position count)
  | none => if p.codes.contains 0 then some (.refused "embedded null byte") else none

/-- The fault of a path longer than `pathLimit` bytes, which the system refuses whatever is
asked of it. -/
def lengthFault? (p : PurePath) : Option Fault :=
  if pathLimit < nameBytes p.codes then some (.file .nameTooLong p.codes) else none

/-- The fault of a path that the file system refuses before looking at any component. -/
def nameFault? (p : PurePath) : Option Fault :=
  match conversionFault? p with
  | some f => some f
  | none => lengthFault? p

variable {m : Type → Type} [Monad m] [Host m]

/-- What the path leads to. -/
def entryAt (p : PurePath) : ExceptT Fault m Entry :=
  ExceptT.mk (Host.entry p)

/-- Whether the path leads to anything. -/
def isPresent (p : PurePath) : ExceptT Fault m Bool := do
  return (← entryAt p) != .missing

/-- Whether the path leads to a file. -/
def isFile (p : PurePath) : ExceptT Fault m Bool := do
  return (← entryAt p) == .file

/-- Whether the path leads to a directory. -/
def isDirectory (p : PurePath) : ExceptT Fault m Bool := do
  return (← entryAt p) == .directory

/-- Line ends made uniform: a carriage return, alone or before a line feed, becomes a line
feed. -/
def uniformNewlines : List Char → List Char
  | [] => []
  | '\r' :: '\n' :: rest => '\n' :: uniformNewlines rest
  | '\r' :: rest => '\n' :: uniformNewlines rest
  | c :: rest => c :: uniformNewlines rest

theorem uniformNewlines_cons {c : Char} (hc : c ≠ '\r') (rest : List Char) :
    uniformNewlines (c :: rest) = c :: uniformNewlines rest := by
  rw [uniformNewlines.eq_def]
  split <;> simp_all

theorem uniformNewlines_noReturn (cs : List Char) (h : '\r' ∉ cs) : uniformNewlines cs = cs := by
  induction cs with
  | nil => rfl
  | cons c rest ih =>
    have hc : c ≠ '\r' := fun e => h (e ▸ List.mem_cons_self)
    rw [uniformNewlines_cons hc, ih (fun e => h (List.mem_cons_of_mem _ e))]

/-- The text of a file, its line ends made uniform. -/
def readText (p : PurePath) : ExceptT Fault m String := do
  let text ← ExceptT.mk (Host.readFile p)
  return String.ofList (uniformNewlines text.toList)

/-- Writes a file as UTF-8. -/
def writeText (p : PurePath) (text : String) : ExceptT Fault m Unit :=
  ExceptT.mk (Host.writeFile p text)

/-- Writes a text given by code points as UTF-8. A text holding a lone surrogate cannot be
encoded: the file is still created, empty, as opening it for writing creates it, and the write
fails at the surrogate. -/
def writeCodes (p : PurePath) (text : List Nat) : ExceptT Fault m Unit :=
  match Text.unencodable? text with
  | none => writeText p (Text.ofCodes text)
  | some (unit, position, count) => do
    writeText p ""
    throw (.unencodable unit position count)

/-- Writes a line to an output. -/
def say (o : Output) (line : String) : ExceptT Fault m Unit :=
  ExceptT.lift (Host.emit o (line ++ "\n"))

/-- The enclosing path: the path without its last component (the path itself when it has
none). -/
def PurePath.parent (p : PurePath) : PurePath :=
  ⟨p.root, p.parts.dropLast⟩

/-- Makes a directory and, where they are missing, its parents; a directory that is already
there is fine. A directory is made after its parent, once a first attempt found the parent
missing. `fuel` bounds the depth and is the number of components. -/
def makeDirs : Nat → PurePath → ExceptT Fault m Unit
  | fuel, p => do
    match ← ExceptT.lift (Host.makeDir p) with
    | .ok () => pure ()
    | .error (.file .notFound shown) =>
      match fuel with
      | 0 => throw (.file .notFound shown)
      | fuel + 1 =>
        if p.parts.isEmpty then throw (.file .notFound shown)
        else
          makeDirs fuel (PurePath.parent p)
          match ← ExceptT.lift (Host.makeDir p) with
          | .ok () => pure ()
          | .error (.file .notFound again) => throw (.file .notFound again)
          | .error err => if ← isDirectory p then pure () else throw err
    | .error err => if ← isDirectory p then pure () else throw err

/-- Makes a directory with all its parents. -/
def makeDirAll (p : PurePath) : ExceptT Fault m Unit :=
  makeDirs p.parts.length p

end Keyframes.Files
