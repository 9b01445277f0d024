import Keyframes.Proofs.PathText

/-!
# Where a build writes

A build finds every file below the source folder whose name ends in `.dspa`, and writes the
script of the source `dir/x.dspa` to `dir/x.mcfunction` below the target folder, naming its
function `dir/x` there. Both come from the source's stem, and two stems meet in two ways: a
leading dot starts no suffix, so `.dspa` and `.dspa.dspa` in one folder both have the stem
`.dspa` (`DotTwins`); and the stem `.` of `..dspa` is dropped when the path is read again, so the
function of `sub/..dspa` is the function of `sub.dspa` (`DotNested`). Apart from these, distinct
sources get distinct scripts and distinct functions.

The tree must be one a file system can hold: its locations are plain components, as following a
path makes them (`Tree.Proper`).

Main statement: `compileTree_sharedOutputs`.
-/

namespace Keyframes.Files

/-- Whether a location is one that following a path gives: plain components, after a first `/`
for a location under the root. -/
def Location.isProper : Location → Bool
  | "/" :: rest => rest.all PurePath.isPlain
  | loc => loc.all PurePath.isPlain

/-- A tree whose locations are all proper, as the paths of a file system make them. -/
def Tree.Proper (t : Tree) : Prop :=
  ∀ e ∈ t.nodes, Location.isProper e.1 = true

instance : DecidablePred Tree.Proper := fun t =>
  inferInstanceAs (Decidable (∀ e ∈ t.nodes, Location.isProper e.1 = true))

/-- The components of a proper location past its first `k`, when that skips the root. -/
theorem Location.isPlain_drop {l : Location} (proper : Location.isProper l = true) {k : Nat}
    (skipsRoot : l.inside = false → 0 < k) : ∀ c ∈ l.drop k, PurePath.isPlain c = true := by
  intro c mem
  rw [Location.isProper.eq_def] at proper
  split at proper
  · rename_i rest
    obtain ⟨j, rfl⟩ : ∃ j, k = j + 1 := ⟨k - 1, by have := skipsRoot rfl; omega⟩
    rw [List.drop_succ_cons] at mem
    exact List.all_eq_true.1 proper c (List.mem_of_mem_drop mem)
  · exact List.all_eq_true.1 proper c (List.mem_of_mem_drop mem)

/-- What lies below a folder of a proper tree: a path of one or more plain components. -/
theorem Tree.plain_of_mem_filesBelow {t : Tree} (proper : t.Proper) {p : PurePath}
    {rel : List String} (found : rel ∈ t.filesBelow p) :
    rel ≠ [] ∧ ∀ c ∈ rel, PurePath.isPlain c = true := by
  unfold filesBelow at found
  split at found
  · rename_i loc _
    split at found
    · obtain ⟨⟨l, n⟩, mem, made⟩ := List.mem_filterMap.1 found
      cases n with
      | directory => exact absurd made (by simp)
      | file text =>
        dsimp only at made
        split at made
        · rename_i below
          simp only [Bool.and_eq_true, decide_eq_true_eq, Bool.or_eq_true, bne_iff_ne, ne_eq]
            at below
          obtain ⟨⟨_, longer⟩, within⟩ := below
          rw [Option.some.injEq] at made
          subst made
          refine ⟨fun empty => ?_, Location.isPlain_drop (proper _ mem) fun outside => ?_⟩
          · have := congrArg List.length empty
            simp only [List.length_drop, List.length_nil] at this
            omega
          · -- a location under the root lies below the folder only when the folder is not the
            -- working directory
            rcases within with filled | inside
            · exact List.length_pos_iff.2 filled
            · exact absurd inside (by rw [outside]; decide)
        · exact absurd made (by simp)
    · exact absurd found List.not_mem_nil
  · exact absurd found List.not_mem_nil

end Keyframes.Files

namespace Keyframes.PurePath

/-- Two sources beside each other named `.dspa` and `.dspa.dspa`: a leading dot starts no
suffix, so both have the stem `.dspa`. -/
def DotTwins (p q : PurePath) : Prop :=
  p.parts.dropLast = q.parts.dropLast ∧
    (p.name = ".dspa" ∧ q.name = ".dspa.dspa" ∨ p.name = ".dspa.dspa" ∧ q.name = ".dspa")

/-- A source `..dspa`, whose stem `.` reading a path drops, in a folder named as the stem of the
source `q` beside that folder. -/
def DotNested (p q : PurePath) : Prop :=
  p.name = "..dspa" ∧ p.parts.dropLast = q.parts.dropLast ++ [q.stem]

end Keyframes.PurePath

namespace Keyframes

open PurePath Files

/-- A source as a build finds it below the folder `F`: `dir/x.dspa`, below plain folders, with
a marked `x`. -/
structure Found (F p : PurePath) (dir : List String) (x : String) : Prop where
  plain : ∀ c ∈ dir, isPlain c = true
  marked : PurePath.marked x.toList = true
  eq : p = ⟨F.root, F.parts ++ (dir ++ [x ++ ".dspa"])⟩

namespace Found

variable {F p q : PurePath} {dir dir' : List String} {x x' : String}

theorem dropLast (found : Found F p dir x) : p.parts.dropLast = F.parts ++ dir := by
  rw [found.eq, ← List.append_assoc, List.dropLast_concat]

theorem name (found : Found F p dir x) : p.name = x ++ ".dspa" := by
  rw [found.eq, PurePath.name, ← List.append_assoc, List.getLast?_concat, Option.getD_some]

theorem name_eq_iff (found : Found F p dir x) {n y : String} (split : n = y ++ ".dspa") :
    p.name = n ↔ x = y := by
  rw [split, found.name, String.append_left_inj]

theorem stem (found : Found F p dir x) : p.stem = if x = "" then ".dspa" else x :=
  stem_of_name found.name

theorem stem_eq_dot (found : Found F p dir x) : p.stem = "." ↔ x = "." := by
  rw [found.stem]
  split_ifs with empty
  · rw [empty]
    decide
  · rfl

theorem source_eq_iff (found : Found F p dir x) (found' : Found F q dir' x') :
    p = q ↔ dir = dir' ∧ x = x' := by
  rw [found.eq, found'.eq, PurePath.mk.injEq, List.append_cancel_left_eq,
    List.append_singleton_inj, String.append_left_inj, eq_self, true_and]

theorem ne_append_dot (found : Found F p dir x) (d : List String) : dir ≠ d ++ ["."] := by
  intro same
  have plain := found.plain "." (by rw [same]; exact List.mem_append_right _ List.mem_cons_self)
  exact absurd plain (by decide)

/-- Two sources named differently share a stem only as `.dspa` and `.dspa.dspa`. -/
theorem stem_eq_iff (found : Found F p dir x) (found' : Found F q dir' x') (different : x ≠ x') :
    p.stem = q.stem ↔ x = "" ∧ x' = ".dspa" ∨ x = ".dspa" ∧ x' = "" := by
  rw [found.stem, found'.stem]
  split_ifs with empty empty' <;> grind

theorem twins_iff (found : Found F p dir x) (found' : Found F q dir' x') (distinct : p ≠ q) :
    dir = dir' ∧ p.stem = q.stem ↔ p.DotTwins q := by
  have different : dir = dir' → x ≠ x' := fun sameDir sameName =>
    distinct ((found.source_eq_iff found').2 ⟨sameDir, sameName⟩)
  unfold DotTwins
  rw [found.dropLast, found'.dropLast, List.append_cancel_left_eq,
    found.name_eq_iff (n := ".dspa") (y := "") (by decide),
    found.name_eq_iff (n := ".dspa.dspa") (y := ".dspa") (by decide),
    found'.name_eq_iff (n := ".dspa") (y := "") (by decide),
    found'.name_eq_iff (n := ".dspa.dspa") (y := ".dspa") (by decide)]
  constructor
  · rintro ⟨sameDir, sameStem⟩
    exact ⟨sameDir, (found.stem_eq_iff found' (different sameDir)).1 sameStem⟩
  · rintro ⟨sameDir, names⟩
    exact ⟨sameDir, (found.stem_eq_iff found' (different sameDir)).2 names⟩

theorem nested_iff (found : Found F p dir x) (found' : Found F q dir' x') :
    p.DotNested q ↔ x = "." ∧ dir = dir' ++ [q.stem] := by
  unfold DotNested
  rw [found.dropLast, found'.dropLast, List.append_assoc, List.append_cancel_left_eq,
    found.name_eq_iff (n := "..dspa") (y := ".") (by decide)]

theorem relative (found : Found F p dir x) :
    (p.relativeTo? F).getD p = ⟨"", dir ++ [x ++ ".dspa"]⟩ := by
  rw [found.eq, relativeTo?_append, Option.getD_some]

theorem relative_stem (found : Found F p dir x) :
    (⟨"", dir ++ [x ++ ".dspa"]⟩ : PurePath).stem = p.stem := by
  rw [found.stem]
  exact stem_of_name (by rw [PurePath.name, List.getLast?_concat, Option.getD_some])

/-- A name with the suffix `.mcfunction` is kept when a path is read again. -/
theorem kept_mcfunction (s : String) :
    (s ++ ".mcfunction" != "." && s ++ ".mcfunction" != "") = true := by
  have long : 11 ≤ (s ++ ".mcfunction").length := by
    rw [String.length_append]
    exact Nat.le_add_left _ _
  simp only [Bool.and_eq_true, bne_iff_ne, ne_eq]
  constructor
  · intro same
    rw [same] at long
    exact absurd long (by decide)
  · intro same
    rw [same] at long
    exact absurd long (by decide)

/-- The script of a found source goes to the same folders below the target folder, under the
source's stem. -/
theorem target (found : Found F p dir x) (T : PurePath) (made : Compiled × String) :
    (Artifact.of F T p made).target = ⟨T.root, T.parts ++ (dir ++ [p.stem ++ ".mcfunction"])⟩ := by
  dsimp only [Artifact.of]
  rw [found.relative, withSuffix, withName, List.dropLast_concat, found.relative_stem,
    join_relative, List.filter_append, filter_plain found.plain,
    List.filter_cons_of_pos (p := fun c => c != "." && c != "") (kept_mcfunction _), List.filter_nil]

/-- The function of a found source: its stem in the same folders below the target folder, or
only those folders when the stem is `.`. -/
theorem functionPath (found : Found F p dir x) (T : PurePath) (made : Compiled × String) :
    (Artifact.of F T p made).functionPath =
      codes ⟨T.root, T.parts ++ (dir ++ if x = "." then [] else [p.stem])⟩ := by
  dsimp only [Artifact.of]
  rw [found.relative, withSuffix, withName, List.dropLast_concat, found.relative_stem,
    String.append_empty, join_relative, List.filter_append, filter_plain found.plain]
  congr 4
  by_cases dot : x = "."
  · rw [if_pos dot, List.filter_cons_of_neg (p := fun c => c != "." && c != "")
      (by simp [found.stem_eq_dot.2 dot]), List.filter_nil]
  · have kept : (p.stem != "." && p.stem != "") = true := by
      rw [found.stem]
      split_ifs with empty
      · decide
      · simp [dot, empty]
    rw [if_neg dot, List.filter_cons_of_pos (p := fun c => c != "." && c != "") kept,
      List.filter_nil]

/-- The function of a found source is named by a plain path when the target folder is plain. -/
theorem plain_functionPath (found : Found F p dir x) {T : PurePath} (plainT : T.Plain) :
    (⟨T.root, T.parts ++ (dir ++ if x = "." then [] else [p.stem])⟩ : PurePath).Plain := by
  refine ⟨plainT.1, fun c mem => ?_⟩
  rcases List.mem_append.1 mem with inT | below
  · exact plainT.2 c inT
  rcases List.mem_append.1 below with inDir | named
  · exact found.plain c inDir
  split_ifs at named with dot
  · exact absurd named List.not_mem_nil
  rw [List.mem_singleton.1 named, found.stem]
  split_ifs with empty
  · decide
  · simp only [isPlain, Bool.and_eq_true, bne_iff_ne, ne_eq]
    exact ⟨⟨empty, dot⟩, found.marked⟩

/-- Two found sources name one function exactly when they share a stem in one folder, or when
one is `..dspa` in the folder named as the other's stem. -/
theorem functionParts_eq_iff (found : Found F p dir x) (found' : Found F q dir' x')
    (distinct : p ≠ q) :
    (dir ++ if x = "." then [] else [p.stem]) = (dir' ++ if x' = "." then [] else [q.stem]) ↔
      p.DotTwins q ∨ p.DotNested q ∨ q.DotNested p := by
  rw [← found.twins_iff found' distinct, found.nested_iff found', found'.nested_iff found]
  by_cases dot : x = "." <;> by_cases dot' : x' = "."
  · -- both stems are `.`: the folders would be equal, or one would hold a folder `.`
    have apart : dir ≠ dir' := fun same =>
      distinct ((found.source_eq_iff found').2 ⟨same, dot.trans dot'.symm⟩)
    rw [if_pos dot, if_pos dot', List.append_nil, List.append_nil, found'.stem_eq_dot.2 dot',
      found.stem_eq_dot.2 dot]
    simp only [apart, false_and, found.ne_append_dot, found'.ne_append_dot, and_false, or_self]
  · have stems : p.stem ≠ q.stem := by
      rw [found.stem_eq_dot.2 dot]
      exact fun same => dot' (found'.stem_eq_dot.1 same.symm)
    rw [if_pos dot, if_neg dot', List.append_nil]
    simp only [stems, and_false, dot, dot', true_and, false_and, or_false, false_or]
  · have stems : p.stem ≠ q.stem := by
      rw [found'.stem_eq_dot.2 dot']
      exact fun same => dot (found.stem_eq_dot.1 same)
    rw [if_neg dot, if_pos dot', List.append_nil]
    simp only [stems, and_false, dot, dot', true_and, false_and, false_or, eq_comm]
  · rw [if_neg dot, if_neg dot', List.append_singleton_inj]
    simp only [dot, dot', false_and, or_false]

end Found

/-- Every source a search finds is a file below the folder whose name ends in `.dspa`. -/
theorem mem_findSources {folder : PurePath} {s : Session} {sources : List PurePath}
    (found : outcome (findSources folder : HostM (List PurePath)) s = .ok sources) :
    ∀ p ∈ sources, ∃ rel ∈ s.tree.filesBelow folder, isSource rel = true ∧
      p = ⟨folder.root, folder.parts ++ rel⟩ := by
  intro p mem
  rw [outcome_findSources] at found
  obtain ⟨e, _, listed⟩ := bind_eq_ok.1 found
  split at listed
  · rw [Except.ok.injEq] at listed
    rw [← listed] at mem
    obtain ⟨rel, sorted, rfl⟩ := List.mem_map.1 mem
    obtain ⟨below, source⟩ := List.mem_filter.1 (List.mem_mergeSort.1 sorted)
    exact ⟨rel, below, source, rfl⟩
  · exact absurd listed (by simp)

/-- Every artifact a build gathers is made from one of its sources. -/
theorem mem_gather {sourceRoot targetRoot : PurePath} {sources : List PurePath}
    {out : PurePath → Except Fault (Compiled × String)} {arts : List Artifact}
    (gathered : gather sourceRoot targetRoot sources out = .ok arts) :
    ∀ a ∈ arts, ∃ p ∈ sources, ∃ made, a = Artifact.of sourceRoot targetRoot p made := by
  intro a mem
  unfold gather at gathered
  split at gathered
  · exact absurd gathered (by simp)
  · dsimp only at gathered
    split at gathered
    · rw [Except.ok.injEq] at gathered
      rw [← gathered] at mem
      obtain ⟨p, source, made⟩ := List.mem_filterMap.1 mem
      obtain ⟨m, _, rfl⟩ := Option.map_eq_some_iff.1 made
      exact ⟨p, source, m, rfl⟩
    · exact absurd gathered (by simp)

/-- Every artifact of a build of a proper tree comes from a source found below the source
folder. -/
theorem found_of_built {config : Config} {s : Session} {arts : List Artifact}
    (proper : s.tree.Proper)
    (built : outcome (compileTree config : HostM (List Artifact)) s = .ok arts) :
    ∀ a ∈ arts, ∃ p dir x made, Found (ofCodes config.sourceFolder) p dir x ∧
      a = Artifact.of (ofCodes config.sourceFolder) (ofCodes config.targetFolder) p made := by
  intro a mem
  rw [outcome_compileTree] at built
  obtain ⟨sources, found, gathered⟩ := bind_eq_ok.1 built
  obtain ⟨p, source, made, rfl⟩ := mem_gather gathered a mem
  obtain ⟨rel, below, isSrc, rfl⟩ := mem_findSources found p source
  obtain ⟨filled, plain⟩ := Tree.plain_of_mem_filesBelow proper below
  obtain ⟨dir, n, rfl⟩ := (List.eq_nil_or_concat' rel).resolve_left filled
  rw [isSource, List.getLast?_concat, Option.getD_some, String.endsWith,
    String.Slice.endsWith_string_iff, String.copy_toSlice] at isSrc
  obtain ⟨xs, named⟩ := isSrc
  -- the name is `xs.dspa`, and `xs` is marked as the name is
  have nameMarked : marked (xs ++ '.' :: "dspa".toList) = true := by
    have := plain n (List.mem_append_right _ (List.mem_singleton_self n))
    simp only [isPlain, Bool.and_eq_true] at this
    rw [← named] at this
    exact this.2
  have split : n = String.ofList xs ++ ".dspa" := by
    apply String.toList_injective
    rw [String.toList_append, String.toList_ofList, named]
  refine ⟨_, dir, String.ofList xs, made, ⟨fun c inDir => plain c (List.mem_append_left _ inDir),
    by rw [String.toList_ofList]; exact marked_of_append_dot nameMarked, ?_⟩, rfl⟩
  rw [split]

theorem Artifact.source_of (sourceRoot targetRoot p : PurePath) (made : Compiled × String) :
    (Artifact.of sourceRoot targetRoot p made).source = p :=
  rfl

/-- Two sources of a build of a proper tree get one script exactly when they are `.dspa` and
`.dspa.dspa` in one folder, and one function also when one of them is `..dspa` in the folder
named as the stem of the other: a leading dot starts no suffix, and a stem `.` is dropped. -/
theorem compileTree_sharedOutputs {config : Config} {s : Session} {arts : List Artifact}
    (proper : s.tree.Proper)
    (built : outcome (compileTree config : HostM (List Artifact)) s = .ok arts) :
    ∀ a ∈ arts, ∀ b ∈ arts, a.source ≠ b.source →
      (a.target = b.target ↔ a.source.DotTwins b.source) ∧
      (a.functionPath = b.functionPath ↔
        a.source.DotTwins b.source ∨ a.source.DotNested b.source ∨
          b.source.DotNested a.source) := by
  intro a memA b memB distinct
  obtain ⟨p, dir, x, made, found, rfl⟩ := found_of_built proper built a memA
  obtain ⟨q, dir', x', made', found', rfl⟩ := found_of_built proper built b memB
  rw [Artifact.source_of, Artifact.source_of] at distinct ⊢
  have plainT := ofCodes_plain config.targetFolder
  refine ⟨?_, ?_⟩
  · rw [found.target, found'.target, PurePath.mk.injEq, List.append_cancel_left_eq,
      List.append_singleton_inj, String.append_left_inj, ← found.twins_iff found' distinct]
    exact ⟨And.right, And.intro rfl⟩
  · -- the functions are the texts of plain paths, which tell the paths apart
    rw [found.functionPath, found'.functionPath, ← found.functionParts_eq_iff found' distinct]
    constructor
    · intro same
      have paths := codes_injective (found.plain_functionPath plainT)
        (found'.plain_functionPath plainT) same
      rw [PurePath.mk.injEq, List.append_cancel_left_eq] at paths
      exact paths.2
    · intro same
      rw [same]

/-- A search lists the sources below a directory in the order they are sorted in. -/
theorem outcome_findSources_of_sorted (folder : PurePath) {s : Session}
    (rels : List (List String))
    (directory : outcome (entryAt folder : HostM Entry) s = .ok .directory)
    (listed : (s.tree.filesBelow folder).filter isSource = rels)
    (sorted : rels.Pairwise fun a b => !partsBefore b a) :
    outcome (findSources folder : HostM (List PurePath)) s =
      .ok (rels.map fun rel => ⟨folder.root, folder.parts ++ rel⟩) := by
  rw [outcome_findSources, directory, ok_bind,
    if_pos (show (Entry.directory == Entry.directory) = true from rfl), listed,
    List.mergeSort_of_pairwise sorted]

/-- A build whose sources all compile gives the artifact of each, in the order of the search. -/
theorem outcome_compileTree_of_compiled {config : Config} {s : Session}
    {sources : List PurePath}
    (found : outcome (findSources (ofCodes config.sourceFolder) : HostM (List PurePath)) s =
      .ok sources)
    (compiled : ∀ p ∈ sources, (outcome (compileSource p : HostM _) s).toBool = true) :
    outcome (compileTree config : HostM (List Artifact)) s =
      .ok (sources.map fun p => Artifact.of (ofCodes config.sourceFolder)
        (ofCodes config.targetFolder) p
        ((outcome (compileSource p : HostM _) s).toOption.getD default)) := by
  have made : ∀ p ∈ sources, outcome (compileSource p : HostM _) s =
      .ok ((outcome (compileSource p : HostM _) s).toOption.getD default) :=
    fun p mem => eq_ok_of_toBool default (compiled p mem)
  rw [outcome_compileTree, found, ok_bind]
  unfold gather
  rw [List.findSome?_eq_none_iff.2 fun p mem => by dsimp only; rw [made p mem]; rfl]
  dsimp only
  rw [List.flatMap_eq_nil_iff.2 fun p mem => by rw [made p mem]; rfl, if_pos List.isEmpty_nil,
    List.filterMap_eq_map_iff_forall_eq_some.2 fun p mem => by rw [made p mem]; rfl]

/-- A source `sub.dspa` beside a folder `sub` that holds a source `..dspa`. -/
def nestedSession : Session :=
  { tree := { nodes := [(["src"], .directory), (["src", "sub"], .directory),
      (["src", "sub", "..dspa"], .file "object c:d\nwait 2"),
      (["src", "sub.dspa"], .file "object a:b\nwait 1")] } }

theorem compileTree_sharedOutputs_nested : nestedSession.tree.Proper ∧ ∃ arts,
    outcome (compileTree ({} : Config) : HostM (List Artifact)) nestedSession = .ok arts ∧
    ∀ a ∈ arts, ∀ b ∈ arts, a.source ≠ b.source →
      (a.target = b.target ↔ a.source.DotTwins b.source) ∧
      (a.functionPath = b.functionPath ↔
        a.source.DotTwins b.source ∨ a.source.DotNested b.source ∨
          b.source.DotNested a.source) := by
  have proper : nestedSession.tree.Proper := by decide
  have root : ofCodes ({} : Config).sourceFolder = ⟨"", ["src"]⟩ := by decide +kernel
  have found := outcome_findSources_of_sorted ⟨"", ["src"]⟩ (s := nestedSession)
    [["sub", "..dspa"], ["sub.dspa"]] rfl (by decide +kernel) (by decide +kernel)
  rw [← root] at found
  have built := outcome_compileTree_of_compiled found (by decide +kernel)
  exact ⟨proper, _, built, compileTree_sharedOutputs proper built⟩

/-- Sources `.dspa` and `.dspa.dspa` in one folder. -/
def twinSession : Session :=
  { tree := { nodes := [(["src"], .directory), (["src", ".dspa"], .file "object a:b\nwait 1"),
      (["src", ".dspa.dspa"], .file "object c:d\nwait 2")] } }

/-- The two sources of `twinSession` both compile, and get one script and one function. -/
theorem compileTree_twins_share :
    ∃ arts, outcome (compileTree ({} : Config) : HostM (List Artifact)) twinSession = .ok arts ∧
      ∃ a ∈ arts, ∃ b ∈ arts, a.source ≠ b.source ∧ a.target = b.target ∧
        a.functionPath = b.functionPath := by
  have root : ofCodes ({} : Config).sourceFolder = ⟨"", ["src"]⟩ := by decide +kernel
  have found := outcome_findSources_of_sorted ⟨"", ["src"]⟩ (s := twinSession)
    [[".dspa"], [".dspa.dspa"]] rfl (by decide +kernel) (by decide +kernel)
  rw [← root] at found
  refine ⟨_, outcome_compileTree_of_compiled found (by decide +kernel), ?_⟩
  exact ⟨_, List.mem_cons_self, _, List.mem_cons_of_mem _ List.mem_cons_self,
    by decide +kernel, by decide +kernel, by decide +kernel⟩

end Keyframes
