import Keyframes.Build
import Keyframes.Files.Tree
import Keyframes.Proofs.Except

/-!
# What a build gathers

On the pure host a build only reads: `compileTree` leaves the session as it found it, so
nothing is written and nothing is logged before the outputs are (`Reads`). Each source is
compiled on its own from that session, and the build is said through those outcomes
(`gather`): the first source whose fault is no refusal stops the build with that fault;
otherwise the build fails with the faulty lines of all refused sources, in the order of the
sources, each source's lines as `faultLines` records them; otherwise it gives the artifact of
every source, in that order.

A fault that is no refusal is, for instance, a coordinate that overflows single precision when
its script is written: the source that holds it stops the build, and the faults of the sources
after it are never gathered (`compileTree_overflow`).

Main statement: `compileTree_gathers`.
-/

namespace Keyframes
open Keyframes.Files

/-- The monad of the pure host. -/
abbrev HostM := ExceptT Fault (StateM Session)

/-- A computation of the pure host that only reads: it leaves the session as it found it. -/
def Reads {α : Type} (x : HostM α) : Prop :=
  ∀ s, (x.run.run s).2 = s

/-- What a computation of the pure host gives from a session. -/
def outcome {α : Type} (x : HostM α) (s : Session) : Except Fault α :=
  (x.run.run s).1

theorem HostM.run_bind {α β : Type} (x : HostM α) (g : α → HostM β) (s : Session) :
    (x >>= g).run.run s = match x.run.run s with
      | (.ok a, s') => (g a).run.run s'
      | (.error e, s') => (.error e, s') := by
  simp only [ExceptT.run_bind, StateT.run_bind]
  rcases x.run.run s with ⟨_ | _, s'⟩ <;> rfl

theorem HostM.run_pure {α : Type} (a : α) (s : Session) :
    (pure a : HostM α).run.run s = (.ok a, s) :=
  rfl

theorem HostM.run_lift {α : Type} (x : StateM Session α) (s : Session) :
    (ExceptT.lift x : HostM α).run.run s = (.ok (x.run s).1, (x.run s).2) := rfl


theorem Reads.run_eq {α : Type} {x : HostM α} (reads : Reads x) (s : Session) :
    x.run.run s = (outcome x s, s) :=
  Prod.ext rfl (reads s)

theorem Reads.bind {α β : Type} {x : HostM α} {g : α → HostM β} (first : Reads x)
    (next : ∀ a, Reads (g a)) : Reads (x >>= g) := by
  intro s
  rw [HostM.run_bind, first.run_eq]
  cases outcome x s with
  | ok a => exact next a s
  | error e => rfl

theorem outcome_bind {α β : Type} {x : HostM α} {g : α → HostM β} (first : Reads x)
    (s : Session) : outcome (x >>= g) s = outcome x s >>= fun a => outcome (g a) s := by
  unfold outcome
  rw [HostM.run_bind, first.run_eq]
  cases outcome x s <;> rfl

theorem Reads.pure {α : Type} (a : α) : Reads (pure a : HostM α) := fun _ => rfl

theorem Reads.throw {α : Type} (f : Fault) : Reads (throw f : HostM α) := fun _ => rfl

theorem Reads.ofResult {α : Type} (r : Except Fault α) : Reads (ofResult r : HostM α) :=
  fun _ => rfl

theorem entryAt_reads (p : PurePath) : Reads (entryAt p : HostM Entry) := by
  intro s
  unfold entryAt
  show ((Host.entry p : StateM Session _).run s).2 = s
  simp only [Host.entry]
  split <;> rfl

theorem readText_reads (p : PurePath) : Reads (readText p : HostM String) := by
  unfold readText
  refine Reads.bind ?_ fun _ => Reads.pure _
  intro s
  show ((Host.readFile p : StateM Session _).run s).2 = s
  simp only [Host.readFile]
  split <;> rfl

theorem readInput_reads (p : PurePath) : Reads (readInput p : HostM String) := by
  unfold readInput
  refine (entryAt_reads p).bind fun e => ?_
  cases e
  · exact Reads.throw _
  · exact readText_reads p
  · exact Reads.throw _

theorem parseFile_reads (p : PurePath) : Reads (parseFile p : HostM Source.Program) :=
  (readInput_reads p).bind fun _ => Reads.ofResult _

theorem compileFile_reads (p : PurePath) : Reads (compileFile p : HostM Compiled) :=
  (parseFile_reads p).bind fun _ => Reads.ofResult _

theorem compileSource_reads (p : PurePath) :
    Reads (compileSource p : HostM (Compiled × String)) :=
  (compileFile_reads p).bind fun _ => (Reads.ofResult _).bind fun _ => Reads.pure _

theorem findSources_reads (folder : PurePath) :
    Reads (findSources folder : HostM (List PurePath)) := by
  unfold findSources isDirectory
  refine ((entryAt_reads folder).bind fun _ => Reads.pure _).bind fun isDir => ?_
  -- the listing reads the tree and changes nothing
  have listing : ∀ f : List (List String) → HostM (List PurePath), (∀ l, Reads (f l)) →
      Reads (ExceptT.lift (Host.filesBelow folder) >>= f) := fun f each =>
    Reads.bind (fun _ => rfl) each
  dsimp only
  split
  · exact listing _ fun _ => Reads.pure _
  · exact (Reads.throw _).bind fun _ => listing _ fun _ => Reads.pure _

/-- The sources below a folder that is there, in the order of their components. -/
theorem outcome_findSources (folder : PurePath) (s : Session) :
    outcome (findSources folder : HostM (List PurePath)) s =
      outcome (entryAt folder) s >>= fun e =>
        if e == .directory then
          .ok ((((s.tree.filesBelow folder).filter isSource).mergeSort
            fun a b => !partsBefore b a).map fun rel => ⟨folder.root, folder.parts ++ rel⟩)
        else .error (.badInput ("source folder not found: " ++ folder.shownText)) := by
  unfold outcome findSources isDirectory
  rw [HostM.run_bind, HostM.run_bind, (entryAt_reads folder).run_eq]
  cases outcome (entryAt folder) s with
  | error f => rfl
  | ok e =>
    dsimp only
    cases e <;> rfl

/-- The fault of a source's outcome that stops a build: a fault that is no refusal. -/
def stopping (source : PurePath) : Except Fault (Compiled × String) → Option Fault
  | .ok _ => none
  | .error f => if (faultLines source f).isSome then none else some f

/-- The faulty lines a build records for a source's outcome. -/
def recorded (source : PurePath) : Except Fault (Compiled × String) → List LineError
  | .ok _ => []
  | .error f => (faultLines source f).getD []

/-- A build said through the outcome of each source compiled on its own: the first source whose
fault is no refusal stops it; otherwise it fails with the faulty lines of all refused sources,
in order; otherwise it gives the artifacts of all sources, in order. -/
def gather (sourceRoot targetRoot : PurePath) (sources : List PurePath)
    (out : PurePath → Except Fault (Compiled × String)) : Except Fault (List Artifact) :=
  match sources.findSome? fun p => stopping p (out p) with
  | some f => .error f
  | none =>
    let errors := sources.flatMap fun p => recorded p (out p)
    if errors.isEmpty then
      .ok (sources.filterMap fun p => (out p).toOption.map (Artifact.of sourceRoot targetRoot p))
    else .error (.lines errors)

/-- Compiling the sources one after another is compiling each on its own from the same session. -/
theorem compileEach_run (sourceRoot targetRoot : PurePath) (s : Session) :
    ∀ sources : List PurePath, (compileEach sourceRoot targetRoot sources : HostM _).run.run s =
      (match sources.findSome? fun p => stopping p (outcome (compileSource p) s) with
        | some f => .error f
        | none => .ok (sources.filterMap fun p =>
              (outcome (compileSource p) s).toOption.map (Artifact.of sourceRoot targetRoot p),
            sources.flatMap fun p => recorded p (outcome (compileSource p) s)), s)
  | [] => rfl
  | source :: rest => by
    unfold compileEach
    rw [HostM.run_bind, HostM.run_lift]
    rw [(compileSource_reads source).run_eq]
    dsimp only
    simp only [List.findSome?_cons, List.filterMap_cons, List.flatMap_cons]
    cases made : outcome (compileSource source) s with
    | ok m =>
      simp only [HostM.run_bind, HostM.run_pure, compileEach_run sourceRoot targetRoot s rest,
        stopping, recorded]
      cases rest.findSome? _ <;> rfl
    | error f =>
      cases lines : faultLines source f with
      | some es =>
        simp only [HostM.run_bind, HostM.run_pure, compileEach_run sourceRoot targetRoot s rest,
          stopping, recorded, lines]
        cases rest.findSome? _ <;> rfl
      | none =>
        simp only [stopping, lines]
        rfl

theorem compileTree_reads (config : Config) :
    Reads (compileTree config : HostM (List Artifact)) := by
  unfold compileTree
  refine (findSources_reads _).bind fun sources => ?_
  refine Reads.bind (fun s => by rw [compileEach_run]) fun pair => ?_
  obtain ⟨artifacts, errors⟩ := pair
  dsimp only
  split
  · exact Reads.pure _
  · exact Reads.throw _

theorem outcome_compileTree (config : Config) (s : Session) :
    outcome (compileTree config : HostM (List Artifact)) s =
      outcome (findSources (PurePath.ofCodes config.sourceFolder)) s >>= fun sources =>
        gather (PurePath.ofCodes config.sourceFolder) (PurePath.ofCodes config.targetFolder) sources
          fun p => outcome (compileSource p) s := by
  unfold compileTree
  rw [outcome_bind (findSources_reads _)]
  cases outcome (findSources (PurePath.ofCodes config.sourceFolder)) s with
  | error f => rfl
  | ok sources =>
    simp only [ok_bind]
    conv => lhs; rw [outcome, HostM.run_bind, compileEach_run]
    unfold gather
    dsimp only
    cases sources.findSome? fun p => stopping p (outcome (compileSource p) s) with
    | some f => rfl
    | none =>
      dsimp only
      split <;> rfl

/-- A build leaves the session as it found it and gathers the outcomes of its sources, each
compiled on its own. -/
theorem compileTree_gathers (config : Config) (s : Session) :
    (compileTree config : HostM (List Artifact)).run.run s =
      (outcome (findSources (PurePath.ofCodes config.sourceFolder)) s >>= fun sources =>
        gather (PurePath.ofCodes config.sourceFolder) (PurePath.ofCodes config.targetFolder) sources
          fun p => outcome (compileSource p) s, s) := by
  rw [(compileTree_reads config).run_eq, outcome_compileTree]

/-- Three sources: `a.dspa` compiles, `b.dspa` moves an entity to a coordinate that rounds
beyond single precision when its script is written, and `c.dspa` is refused. -/
def overflowSession : Session :=
  { tree := { nodes := [(["src"], .directory), (["src", "a.dspa"], .file "m e 1 0 0 0"),
      (["src", "b.dspa"], .file "m e 3.4027e38 0 0 0"), (["src", "c.dspa"], .file "bogus")] } }

/-- The overflow of `b.dspa` stops the build with that fault, not with the faulty lines of the
sources, and the refusal of `c.dspa` is never gathered. -/
theorem compileTree_overflow :
    (compileTree ({} : Config) : HostM (List Artifact)).run.run overflowSession =
      (.error .singleOverflow, overflowSession) := by
  have root : PurePath.ofCodes ({} : Config).sourceFolder = ⟨"", ["src"]⟩ := by decide +kernel
  have directory : outcome (entryAt (⟨"", ["src"]⟩ : PurePath) : HostM Entry) overflowSession =
      .ok .directory := rfl
  have listed : (overflowSession.tree.filesBelow ⟨"", ["src"]⟩).filter isSource =
      [["a.dspa"], ["b.dspa"], ["c.dspa"]] := by decide +kernel
  have sorted : [["a.dspa"], ["b.dspa"], ["c.dspa"]].mergeSort (fun a b => !partsBefore b a) =
      [["a.dspa"], ["b.dspa"], ["c.dspa"]] := List.mergeSort_of_pairwise (by decide +kernel)
  have compiledA : (outcome (compileSource (⟨"", ["src", "a.dspa"]⟩ : PurePath) : HostM _)
      overflowSession).toBool = true := by decide +kernel
  obtain ⟨madeA, readA⟩ : ∃ made,
      outcome (compileSource (⟨"", ["src", "a.dspa"]⟩ : PurePath) : HostM _) overflowSession =
        .ok made := ⟨_, eq_ok_of_toBool default compiledA⟩
  have overflowB : outcome (compileSource (⟨"", ["src", "b.dspa"]⟩ : PurePath) : HostM _)
      overflowSession = .error .singleOverflow := by rfl
  rw [(compileTree_reads _).run_eq, outcome_compileTree, root, outcome_findSources, directory]
  simp only [ok_bind, listed, sorted]
  rw [if_pos (show (Entry.directory == Entry.directory) = true from rfl), ok_bind]
  simp only [List.map_cons, List.map_nil, List.singleton_append]
  -- `a.dspa` compiles, and `b.dspa` stops the build before `c.dspa` is looked at
  unfold gather
  simp only [List.findSome?_cons, stopping, readA, overflowB]
  rfl

end Keyframes
