import Keyframes.Fault
import Keyframes.Text.Surrogate

/-!
# Paths

A path is an optional root and a list of components. Reading a path text splits it at `/` and
drops empty components and `.`; a text that starts with exactly two slashes keeps both as its
root, one or more than two give the root `/`. The name is the last component; its suffix is the
part from its last dot on, unless that dot is the first character or the last; the stem is the
name without its suffix.

A path text given by code points may hold lone surrogates (`ofCodes`); a component keeps such
a unit behind a slash, which no component holds otherwise (`markCode`), and `codes` gives the
text back with the unit in its place.

Main statements: `stem_append_suffix` (stem and suffix make up the name) and
`ofCodes_components` (no component is empty or `.`).
-/

namespace Keyframes

/-- A path: its root (`""`, `"/"` or `"//"`) and its components. -/
structure PurePath where
  root : String
  parts : List String
deriving Repr, BEq, DecidableEq, Inhabited

namespace PurePath

/-- Cuts a text, given by code points, at every slash, keeping empty pieces. -/
def pieces : List Nat → List (List Nat)
  | [] => [[]]
  | c :: rest =>
    match pieces rest with
    | [] => [[c]]
    | first :: more => if c = 0x2F then [] :: first :: more else (c :: first) :: more

/-- How a code point is written in a component. A component holds no slash, so there a slash
marks a lone surrogate code unit: the unit `0xD800 + k` is a slash and the character
`0xE000 + k`. -/
def markCode (n : Nat) : List Char :=
  if Text.isSurrogate n then ['/', Char.ofNat (n - 0xD800 + 0xE000)] else [Char.ofNat n]

/-- The component of a piece of a path text. -/
def component (piece : List Nat) : String :=
  String.ofList (piece.flatMap markCode)

/-- The code points of a component, the lone surrogates it marks among them. -/
def componentCodes : List Char → List Nat
  | [] => []
  | '/' :: c :: rest => (c.toNat - 0xE000 + 0xD800) :: componentCodes rest
  | c :: rest => c.toNat :: componentCodes rest

/-- The components of a relative path text: its pieces, without empty ones and `.`. -/
def components (cs : List Nat) : List String :=
  ((pieces cs).filter fun p => !p.isEmpty && p != [0x2E]).map component

theorem markCode_length_pos (n : Nat) : 0 < (markCode n).length := by
  unfold markCode
  split <;> simp

theorem markCode_ne_nil (n : Nat) : markCode n ≠ [] := by
  intro e
  have := markCode_length_pos n
  rw [e] at this
  exact absurd this (by decide)

theorem toNat_ofNat_eq_dot {n : Nat} (h : Char.ofNat n = '.') : n = 0x2E := by
  by_cases hv : n.isValidChar
  · have e := congrArg Char.toNat h
    rw [Text.toNat_ofNat_valid hv] at e
    exact e
  · have e : Char.ofNat n = '\x00' := by
      unfold Char.ofNat
      rw [dif_neg hv]
      rfl
    rw [e] at h
    exact absurd h (by decide)

theorem markCode_eq_dot {n : Nat} (h : markCode n = ['.']) : n = 0x2E := by
  unfold markCode at h
  split at h
  · simp at h
  · simp only [List.cons.injEq, and_true] at h
    exact toNat_ofNat_eq_dot h

theorem component_ne_empty {p : List Nat} (h : p ≠ []) : component p ≠ "" := by
  intro e
  have := congrArg String.toList e
  simp only [component, String.toList_ofList, String.toList_empty, List.flatMap_eq_nil_iff] at this
  obtain ⟨n, rest, rfl⟩ := List.exists_cons_of_ne_nil h
  exact markCode_ne_nil n (this n (by simp))

theorem component_ne_dot {p : List Nat} (h : p ≠ [0x2E]) : component p ≠ "." := by
  intro e
  have hl := congrArg String.toList e
  simp only [component, String.toList_ofList] at hl
  match p, h, hl with
  | [], _, hl => simp at hl
  | [n], h, hl =>
    simp only [List.flatMap_cons, List.flatMap_nil, List.append_nil] at hl
    have hn : n = 0x2E := markCode_eq_dot (by simpa using hl)
    exact h (by rw [hn])
  | n :: m :: rest, _, hl =>
    have hlen := congrArg List.length hl
    simp only [List.flatMap_cons, List.length_append] at hlen
    have a := markCode_length_pos n
    have b := markCode_length_pos m
    simp at hlen
    omega

theorem ofCodes_components (cs : List Nat) :
    ∀ c ∈ components cs, c ≠ "" ∧ c ≠ "." := by
  intro c hc
  simp only [components, List.mem_map, List.mem_filter, Bool.and_eq_true,
    Bool.not_eq_true', List.isEmpty_eq_false_iff, bne_iff_ne, ne_eq] at hc
  obtain ⟨p, ⟨_, hne, hdot⟩, rfl⟩ := hc
  exact ⟨component_ne_empty hne, component_ne_dot hdot⟩

/-- Reads a path text given by code points. -/
def ofCodes (cs : List Nat) : PurePath :=
  let slashes := (cs.takeWhile (· == 0x2F)).length
  let root := if slashes = 0 then "" else if slashes = 2 then "//" else "/"
  ⟨root, components (cs.drop slashes)⟩

/-- Reads a path text. -/
def ofString (s : String) : PurePath :=
  ofCodes (Text.codes s)

/-- The text of a path: the root, then the components joined by slashes; `.` for the empty
relative path. -/
def text (p : PurePath) : String :=
  if p.root.isEmpty && p.parts.isEmpty then "." else p.root ++ "/".intercalate p.parts

/-- The text of a path as code points, the lone surrogates its components mark among them. -/
def codes (p : PurePath) : List Nat :=
  if p.root.isEmpty && p.parts.isEmpty then [0x2E]
  else Text.codes p.root ++ List.intercalate [0x2F] (p.parts.map fun c => componentCodes c.toList)

/-- The text of a path, each lone surrogate shown as the replacement character: the name a
file system that takes only characters can give it. -/
def shownText (p : PurePath) : String :=
  Text.ofCodes p.codes

/-- The last component, or the empty name. -/
def name (p : PurePath) : String :=
  p.parts.getLast?.getD ""

/-- The position of the dot that starts the suffix of a name, if the name has a suffix. -/
def suffixStart (name : String) : Option Nat :=
  let cs := name.toList
  let dots := (List.range cs.length).filter fun i => cs[i]? = some '.'
  match dots.getLast? with
  | some i => if 0 < i ∧ i < cs.length - 1 then some i else none
  | none => none

/-- The suffix of the name: from its last dot, when that dot is neither first nor last. -/
def suffix (p : PurePath) : String :=
  match suffixStart p.name with
  | some i => String.ofList (p.name.toList.drop i)
  | none => ""

/-- The name without its suffix. -/
def stem (p : PurePath) : String :=
  match suffixStart p.name with
  | some i => String.ofList (p.name.toList.take i)
  | none => p.name

theorem stem_append_suffix (p : PurePath) : p.stem ++ p.suffix = p.name := by
  unfold stem suffix
  split
  · rename_i i _
    apply String.toList_injective
    simp [List.take_append_drop]
  · simp

/-- The path with its last component replaced. -/
def withName (p : PurePath) (name : String) : PurePath :=
  ⟨p.root, p.parts.dropLast ++ [name]⟩

/-- The path with the suffix of its name replaced by `suffix` (which is empty or starts with a
dot). -/
def withSuffix (p : PurePath) (suffix : String) : PurePath :=
  p.withName (p.stem ++ suffix)

/-- The path `q` seen from `p`: `q` itself when it has a root, else the components of both.
The components of `q` are read again, so a name `.` that a change of suffix left behind
(`..dspa` without its suffix) is dropped, as reading a path drops it. -/
def join (p q : PurePath) : PurePath :=
  let parts := q.parts.filter fun c => c != "." && c != ""
  if q.root.isEmpty then ⟨p.root, p.parts ++ parts⟩ else ⟨q.root, parts⟩

/-- The components after those of `base`, when `base` leads to this path. -/
def relativeTo? (p base : PurePath) : Option PurePath :=
  if p.root = base.root ∧ base.parts.isPrefixOf p.parts then
    some ⟨"", p.parts.drop base.parts.length⟩
  else none

end PurePath

end Keyframes
