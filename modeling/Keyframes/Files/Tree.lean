import Keyframes.Files.Host

/-!
# A file tree in memory

The pure model of the host: a tree of files and directories, and the text written to the
outputs. A place in the tree is a `Location`, the list of components from the working
directory. Components `..` at the front of a location stand for the directories above the
working directory, and a location that starts with `/` lies under the root; those directories
exist, and of what lies below them the tree knows only what was written there.

A path is followed one component at a time, as the system does: every component but the last
must lead to a directory, so `o/../t.json` fails when `o` is missing, though it names the same
place as `t.json`; and a component longer than `componentLimit` bytes is refused when it is
looked up, which only happens once the directories before it were found.

Main statement: `put_nodeAt` (what is put at a location is found there).
-/

namespace Keyframes.Files

/-- What a location holds. -/
inductive Node where
  | file (text : String)
  | directory
deriving Repr, BEq, DecidableEq

/-- A place in the tree: the components from the working directory. -/
abbrev Location := List String

/-- The location one level up. Above the working directory, and above the root, this adds a
`..` or stays at the root. -/
def Location.up (loc : Location) : Location :=
  if loc = ["/"] then ["/"] else if loc.all (· == "..") then loc ++ [".."] else loc.dropLast

/-- Whether a location is one of the directories that are always there: the working directory,
those above it, and the root. -/
def Location.isFixed (loc : Location) : Bool :=
  loc.all (· == "..") || loc == ["/"]

/-- Whether a location lies inside the working directory. -/
def Location.inside : Location → Bool
  | ".." :: _ | "/" :: _ => false
  | _ => true

/-- A tree: what each location holds, apart from the directories that are always there. -/
structure Tree where
  nodes : List (Location × Node) := []
deriving Inhabited

namespace Tree

/-- What a location holds. -/
def nodeAt (t : Tree) (loc : Location) : Option Node :=
  if loc.isFixed then some .directory else (t.nodes.find? (·.1 == loc)).map (·.2)

/-- Puts a node at a location, in place of what was there. -/
def put (t : Tree) (loc : Location) (n : Node) : Tree :=
  if t.nodes.any (·.1 == loc) then
    { nodes := t.nodes.map fun e => if e.1 == loc then (loc, n) else e }
  else { nodes := t.nodes ++ [(loc, n)] }

/-- Follows components from a location; every component but the last must lead to a
directory. `shown` is the path as failures show it. -/
def follow (t : Tree) (shown : List Nat) (loc : Location) : List String → Except Fault Location
  | [] => .ok loc
  | c :: rest =>
    if componentLimit < nameBytes (PurePath.componentCodes c.toList) then
      .error (.file .nameTooLong shown)
    else
    let next := if c = ".." then loc.up else loc ++ [c]
    match rest with
    | [] => .ok next
    | _ :: _ =>
      match t.nodeAt next with
      | some .directory => t.follow shown next rest
      | some (.file _) => .error (.file .notADirectory shown)
      | none => .error (.file .notFound shown)

/-- Where a path leads. -/
def locate (t : Tree) (p : PurePath) : Except Fault Location :=
  t.follow p.codes (if p.root.isEmpty then [] else ["/"]) p.parts

/-- What a path leads to; a name too long is the only failure, since a path that is not
there leads to nothing. -/
def entry (t : Tree) (p : PurePath) : Except Fault Entry :=
  match t.locate p with
  | .ok loc =>
    match t.nodeAt loc with
    | some (.file _) => .ok .file
    | some .directory => .ok .directory
    | none => .ok .missing
  | .error (.file .nameTooLong shown) => .error (.file .nameTooLong shown)
  | .error _ => .ok .missing

/-- The text of the file a path leads to. -/
def read (t : Tree) (p : PurePath) : Except Fault String := do
  let loc ← t.locate p
  match t.nodeAt loc with
  | some (.file text) => .ok text
  | some .directory => .error (.file .isADirectory p.codes)
  | none => .error (.file .notFound p.codes)

/-- Writes the file a path leads to. -/
def write (t : Tree) (p : PurePath) (text : String) : Except Fault Tree := do
  let loc ← t.locate p
  match t.nodeAt loc with
  | some .directory => .error (.file .isADirectory p.codes)
  | _ => .ok (t.put loc (.file text))

/-- Makes the directory a path leads to. -/
def makeDir (t : Tree) (p : PurePath) : Except Fault Tree := do
  let loc ← t.locate p
  match t.nodeAt loc with
  | some _ => .error (.file .alreadyExists p.codes)
  | none => .ok (t.put loc .directory)

/-- The files below the directory a path leads to, each as its components below it. -/
def filesBelow (t : Tree) (p : PurePath) : List (List String) :=
  match t.locate p with
  | .ok loc =>
    if t.nodeAt loc == some .directory then
      t.nodes.filterMap fun (l, n) =>
        match n with
        | .file _ =>
          if loc.isPrefixOf l && l.length > loc.length && (loc != [] || l.inside) then
            some (l.drop loc.length)
          else none
        | .directory => none
    else []
  | .error _ => []

/-- The files inside the working directory, each with its path from there as code points (the
lone surrogates its names hold among them). -/
def files (t : Tree) : List (List Nat × String) :=
  t.nodes.filterMap fun (l, n) =>
    match n with
    | .file text =>
      if l.inside then
        some (List.intercalate [0x2F] (l.map fun c => PurePath.componentCodes c.toList), text)
      else none
    | .directory => none

/-- The files inside the working directory that are new or changed since `before`. -/
def changedSince (t before : Tree) : List (List Nat × String) :=
  t.files.filter fun f => !(before.files.contains f)

theorem put_nodeAt (t : Tree) (loc : Location) (n : Node) (h : loc.isFixed = false) :
    (t.put loc n).nodeAt loc = some n := by
  unfold put nodeAt
  rw [if_neg (by simp [h])]
  split
  · rename_i hany
    obtain ⟨e, he, hel⟩ := List.any_eq_true.1 hany
    have : (List.map (fun e => if e.1 == loc then (loc, n) else e) t.nodes).find? (·.1 == loc) =
        some (loc, n) := by
      rw [List.find?_map]
      have hf : (t.nodes.find? ((·.1 == loc) ∘ fun e => if e.1 == loc then (loc, n) else e)) =
          t.nodes.find? (·.1 == loc) := by
        congr 1
        funext e
        simp only [Function.comp]
        split <;> simp_all
      rw [hf]
      obtain ⟨f, hfind⟩ : ∃ f, t.nodes.find? (·.1 == loc) = some f := by
        cases hc : t.nodes.find? (·.1 == loc) with
        | none =>
          rw [List.find?_eq_none] at hc
          exact absurd hel (hc e he)
        | some f => exact ⟨f, rfl⟩
      rw [hfind]
      have := List.find?_some hfind
      simp_all
    rw [this]
    rfl
  · rename_i hany
    have hn : t.nodes.find? (·.1 == loc) = none := by
      rw [List.find?_eq_none]
      intro x hx hxl
      exact hany (List.any_eq_true.2 ⟨x, hx, hxl⟩)
    simp [List.find?_append, hn]

end Tree

/-- The pure host's state: the tree and the text written to each output. -/
structure Session where
  tree : Tree
  out : String := ""
  err : String := ""
  log : String := ""
deriving Inhabited

/-- Changes the tree when an operation succeeds. -/
def Session.update (s : Session) : Except Fault Tree → Except Fault Unit × Session
  | .ok t => (.ok (), { s with tree := t })
  | .error e => (.error e, s)

instance : Host (StateM Session) where
  entry p := do
    match conversionFault? p, lengthFault? p with
    | some _, _ => return .ok .missing
    | none, some f => return .error f
    | none, none => return (← get).tree.entry p
  readFile p := do
    match nameFault? p with
    | some f => return .error f
    | none => return (← get).tree.read p
  writeFile p text :=
    match nameFault? p with
    | some f => pure (.error f)
    | none => modifyGet fun s => s.update (s.tree.write p text)
  makeDir p :=
    match nameFault? p with
    | some f => pure (.error f)
    | none => modifyGet fun s => s.update (s.tree.makeDir p)
  filesBelow p := do return (← get).tree.filesBelow p
  emit o text := modify fun s =>
    match o with
    | .out => { s with out := s.out ++ text }
    | .err => { s with err := s.err ++ text }
    | .log => { s with log := s.log ++ text }

/-- Writes a file, given with its text by code points, after making the directories above
it. -/
def prepareFile (path text : List Nat) : ExceptT Fault (StateM Session) Unit := do
  let p := PurePath.ofCodes path
  makeDirAll (PurePath.parent p)
  writeCodes p text

/-- The tree that holds the given directories and then the given files, paths and texts by
code points, made one after another from the working directory as the system makes them: a
`..` in a path climbs out of the directory before it, which has to be there. Making them fails
as the system would, for instance at a name it cannot take. -/
def Tree.ofLists (files : List (List Nat × List Nat)) (dirs : List (List Nat)) :
    Except Fault Tree :=
  let prepare : ExceptT Fault (StateM Session) Unit := do
    dirs.forM fun d => makeDirAll (PurePath.ofCodes d)
    files.forM fun (path, text) => prepareFile path text
  match prepare.run.run { tree := {} } with
  | (.ok (), s) => .ok s.tree
  | (.error f, _) => .error f

end Keyframes.Files
