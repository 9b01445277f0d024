import Keyframes.Proofs.Gather

/-!
# Reading the text of a path back

A path is written as its root and its components joined by slashes (`codes`), and read by
cutting a text at its slashes (`ofCodes`). A component marks each lone surrogate it holds as a
slash before a private-use character, so the text of a component has no slash; reading drops the
empty components and the components `.`. A path as reading makes it (`Plain`) is read back from
its text, so two such paths with one text are the same path (`codes_injective`).

A source named `x.dspa` has the stem `x`, except the source `.dspa`, whose only dot is its
first character and so starts no suffix: its stem is the whole name (`stem_of_name`).

Main statements: `codes_injective`, `ofCodes_plain`.
-/

namespace Keyframes.PurePath

/-- Whether a component's characters mark lone surrogates only as reading makes them: every
slash stands before a character of the marked range. -/
def marked : List Char → Bool
  | [] => true
  | '/' :: c :: rest => (0xE000 ≤ c.toNat && c.toNat < 0xE800) && marked rest
  | c :: rest => c != '/' && marked rest

theorem marked_cons {c : Char} {rest : List Char} (single : ∀ d r, c = '/' → rest = d :: r → False) :
    marked (c :: rest) = (c != '/' && marked rest) := by
  rw [marked.eq_def]
  split
  · rename_i same
    cases same
  · rename_i d r same
    simp only [List.cons.injEq] at same
    exact (single d r same.1 same.2).elim
  · rename_i d r _ same
    simp only [List.cons.injEq] at same
    rw [same.1, same.2]

theorem flatMap_markCode_componentCodes {cs : List Char} (m : marked cs = true) :
    (componentCodes cs).flatMap markCode = cs := by
  fun_induction componentCodes cs with
  | case1 => rfl
  | case2 c rest ih =>
    simp only [marked, Bool.and_eq_true, decide_eq_true_eq] at m
    have surrogate : Text.isSurrogate (c.toNat - 0xE000 + 0xD800) = true := by
      simp only [Text.isSurrogate, Bool.and_eq_true, decide_eq_true_eq]
      omega
    have back : Char.ofNat (c.toNat - 0xE000 + 0xD800 - 0xD800 + 0xE000) = c := by
      rw [show c.toNat - 0xE000 + 0xD800 - 0xD800 + 0xE000 = c.toNat by omega, Char.ofNat_toNat]
    simp only [List.flatMap_cons, markCode, surrogate, if_true, back, ih m.2]
    rfl
  | case3 c rest single ih =>
    rw [marked_cons single, Bool.and_eq_true] at m
    simp [markCode, Text.isSurrogate_toNat, Char.ofNat_toNat, ih m.2]

theorem slash_not_mem_componentCodes {cs : List Char} (m : marked cs = true) :
    0x2F ∉ componentCodes cs := by
  fun_induction componentCodes cs with
  | case1 => simp
  | case2 c rest ih =>
    simp only [marked, Bool.and_eq_true, decide_eq_true_eq] at m
    simp only [List.mem_cons, not_or]
    exact ⟨by omega, ih m.2⟩
  | case3 c rest single ih =>
    rw [marked_cons single, Bool.and_eq_true] at m
    simp only [List.mem_cons, not_or]
    refine ⟨fun same => ?_, ih m.2⟩
    have slash : c = '/' := by
      rw [← Char.ofNat_toNat c, ← same]
    simp [slash] at m

theorem ofNat_eq_slash {n : Nat} (h : Char.ofNat n = '/') : n = 0x2F := by
  by_cases hv : n.isValidChar
  · have e := congrArg Char.toNat h
    rw [Text.toNat_ofNat_valid hv] at e
    exact e
  · have e : Char.ofNat n = '\x00' := by
      unfold Char.ofNat
      rw [dif_neg hv]
      rfl
    rw [e] at h
    exact absurd h (by decide)

theorem marked_flatMap_markCode : ∀ {p : List Nat}, 0x2F ∉ p → marked (p.flatMap markCode) = true
  | [], _ => rfl
  | n :: rest, noSlash => by
    have later := marked_flatMap_markCode (fun mem => noSlash (List.mem_cons_of_mem n mem))
    have notSlash : n ≠ 0x2F := fun same => noSlash (same ▸ List.mem_cons_self)
    rw [List.flatMap_cons]
    by_cases surrogate : Text.isSurrogate n = true
    · have head : markCode n = ['/', Char.ofNat (n - 0xD800 + 0xE000)] := by
        simp [markCode, surrogate]
      simp only [Text.isSurrogate, Bool.and_eq_true, decide_eq_true_eq] at surrogate
      have valid : (n - 0xD800 + 0xE000).isValidChar := by
        unfold Nat.isValidChar
        omega
      rw [head, List.cons_append, List.cons_append, List.nil_append, marked,
        Text.toNat_ofNat_valid valid, later, Bool.and_true]
      simp only [Bool.and_eq_true, decide_eq_true_eq]
      omega
    · have head : markCode n = [Char.ofNat n] := by simp [markCode, surrogate]
      rw [head, List.cons_append, List.nil_append,
        marked_cons (fun d r slash _ => notSlash (ofNat_eq_slash slash)), later, Bool.and_true]
      simpa using fun slash => notSlash (ofNat_eq_slash slash)

/-- What comes before a dot in a marked text is marked: a dot marks no lone surrogate. -/
theorem marked_of_append_dot {w x : List Char} (m : marked (x ++ '.' :: w) = true) :
    marked x = true := by
  fun_induction marked x with
  | case1 => rfl
  | case2 c rest ih =>
    rw [List.cons_append, List.cons_append, marked, Bool.and_eq_true] at m
    rw [Bool.and_eq_true]
    exact ⟨m.1, ih m.2⟩
  | case3 c rest single ih =>
    by_cases slash : c = '/'
    · cases rest with
      | nil =>
        rw [slash, List.cons_append, List.nil_append, marked, Bool.and_eq_true] at m
        exact absurd m.1 (by decide)
      | cons d r => exact (single d r slash rfl).elim
    · rw [List.cons_append, marked_cons (fun _ _ same _ => slash same), Bool.and_eq_true] at m
      rw [Bool.and_eq_true]
      exact ⟨m.1, ih m.2⟩

/-- A component as reading a path text makes it: not empty, not `.`, and marked. -/
def isPlain (c : String) : Bool :=
  c != "" && c != "." && marked c.toList

/-- A path as reading a path text makes it: a root of no, one or two slashes, and plain
components. -/
def Plain (p : PurePath) : Prop :=
  (p.root = "" ∨ p.root = "/" ∨ p.root = "//") ∧ ∀ c ∈ p.parts, isPlain c = true

theorem pieces_ne_nil : ∀ cs : List Nat, pieces cs ≠ []
  | [] => List.cons_ne_nil _ _
  | c :: rest => by
    unfold pieces
    split
    · exact List.cons_ne_nil _ _
    · split <;> exact List.cons_ne_nil _ _

theorem pieces_eq_splitOn : ∀ cs : List Nat, pieces cs = cs.splitOn 0x2F
  | [] => rfl
  | c :: rest => by
    obtain ⟨first, more, split⟩ := List.exists_cons_of_ne_nil (pieces_ne_nil rest)
    have later := pieces_eq_splitOn rest
    rw [List.splitOn] at later ⊢
    rw [List.splitOnP_cons_eq_if_modifyHead, ← later, split, pieces, split]
    by_cases slash : c = 0x2F
    · simp [slash]
    · simp [slash]

theorem componentCodes_eq_nil : ∀ {cs : List Char}, componentCodes cs = [] → cs = []
  | [], _ => rfl
  | c :: rest, empty => by
    rw [componentCodes.eq_def] at empty
    split at empty <;> simp_all

theorem isPlain_parts {c : String} (plain : isPlain c = true) :
    componentCodes c.toList ≠ [] ∧ 0x2F ∉ componentCodes c.toList ∧
      componentCodes c.toList ≠ [0x2E] ∧ component (componentCodes c.toList) = c := by
  simp only [isPlain, Bool.and_eq_true, bne_iff_ne, ne_eq] at plain
  obtain ⟨⟨filled, notDot⟩, m⟩ := plain
  have back : component (componentCodes c.toList) = c := by
    unfold component
    rw [flatMap_markCode_componentCodes m, String.ofList_toList]
  refine ⟨fun empty => filled ?_, slash_not_mem_componentCodes m, fun dot => notDot ?_, back⟩
  · rw [← String.toList_eq_nil_iff]
    exact componentCodes_eq_nil empty
  · rw [← back, dot]
    decide

theorem slash_not_mem_pieces : ∀ {cs p : List Nat}, p ∈ pieces cs → 0x2F ∉ p
  | [], p, mem => by
    rw [show pieces [] = [[]] from rfl, List.mem_singleton] at mem
    rw [mem]
    exact List.not_mem_nil
  | c :: rest, p, mem => by
    have below : ∀ {q}, q ∈ pieces rest → 0x2F ∉ q := slash_not_mem_pieces
    unfold pieces at mem
    split at mem
    · rename_i empty
      exact absurd empty (pieces_ne_nil rest)
    · rename_i first more cut
      rw [cut] at below
      split at mem
      · rcases List.mem_cons.1 mem with rfl | mem
        · exact List.not_mem_nil
        · exact below mem
      · rename_i plain
        rcases List.mem_cons.1 mem with rfl | mem
        · rw [List.mem_cons, not_or]
          exact ⟨Ne.symm plain, below List.mem_cons_self⟩
        · exact below (List.mem_cons_of_mem _ mem)

theorem isPlain_component {cs p : List Nat} (mem : p ∈ pieces cs) (filled : p ≠ [])
    (notDot : p ≠ [0x2E]) : isPlain (component p) = true := by
  simp only [isPlain, Bool.and_eq_true, bne_iff_ne, ne_eq]
  refine ⟨⟨component_ne_empty filled, component_ne_dot notDot⟩, ?_⟩
  rw [component, String.toList_ofList]
  exact marked_flatMap_markCode (slash_not_mem_pieces mem)

/-- Reading a path text gives a plain path. -/
theorem ofCodes_plain (cs : List Nat) : (ofCodes cs).Plain := by
  refine ⟨?_, ?_⟩
  · dsimp only [ofCodes]
    split
    · exact Or.inl rfl
    · split
      · exact Or.inr (Or.inr rfl)
      · exact Or.inr (Or.inl rfl)
  · intro c mem
    simp only [ofCodes, components, List.mem_map, List.mem_filter, Bool.and_eq_true,
      Bool.not_eq_true', List.isEmpty_eq_false_iff, bne_iff_ne, ne_eq] at mem
    obtain ⟨p, ⟨piece, filled, notDot⟩, rfl⟩ := mem
    exact isPlain_component piece filled notDot

/-- The code points of components joined by slashes, as the text of a path writes them. -/
theorem components_intercalate {ps : List String} (plain : ∀ c ∈ ps, isPlain c = true) :
    components (List.intercalate [0x2F] (ps.map fun c => componentCodes c.toList)) = ps := by
  unfold components
  by_cases empty : ps = []
  · subst empty
    rfl
  · have slashFree : ∀ l ∈ ps.map (fun c => componentCodes c.toList), 0x2F ∉ l := by
      intro l mem
      obtain ⟨c, kept, rfl⟩ := List.mem_map.1 mem
      exact (isPlain_parts (plain c kept)).2.1
    rw [pieces_eq_splitOn, List.splitOn_intercalate _ slashFree (by simpa using empty)]
    have kept : ∀ l ∈ ps.map (fun c => componentCodes c.toList),
        (!l.isEmpty && l != [0x2E]) = true := by
      intro l mem
      obtain ⟨c, inParts, rfl⟩ := List.mem_map.1 mem
      have facts := isPlain_parts (plain c inParts)
      simp [facts.1, facts.2.2.1]
    rw [List.filter_eq_self.2 kept, List.map_map]
    conv => rhs; rw [← List.map_id ps]
    exact List.map_congr_left fun c inParts => (isPlain_parts (plain c inParts)).2.2.2

/-- The joined components of a path start with no slash. -/
theorem takeWhile_intercalate {ps : List String} (plain : ∀ c ∈ ps, isPlain c = true) :
    (List.intercalate [0x2F] (ps.map fun c => componentCodes c.toList)).takeWhile (· == 0x2F) =
      [] := by
  cases ps with
  | nil => rfl
  | cons c rest =>
    have facts := isPlain_parts (plain c List.mem_cons_self)
    obtain ⟨d, ds, first⟩ := List.exists_cons_of_ne_nil facts.1
    have notSlash : d ≠ 0x2F := fun same => facts.2.1 (by rw [first, same]; exact List.mem_cons_self)
    cases rest with
    | nil => simp [first, notSlash]
    | cons c' rest => simp [List.intercalate_cons_cons, first, notSlash]

/-- Reading the text of a path as reading makes it gives the path back. -/
theorem ofCodes_codes {p : PurePath} (plain : p.Plain) : ofCodes p.codes = p := by
  obtain ⟨r, ps⟩ := p
  obtain ⟨root, parts⟩ := plain
  have take := takeWhile_intercalate parts
  have back := components_intercalate parts
  unfold codes ofCodes
  dsimp only at root parts ⊢
  generalize List.intercalate [0x2F] (ps.map fun c => componentCodes c.toList) = L at take back ⊢
  -- the root is written as its slashes, and the components start with none
  rcases root with rfl | rfl | rfl
  · cases ps with
    | nil =>
      have bare : ("".isEmpty && ([] : List String).isEmpty) = true := by decide
      rw [if_pos bare]
      decide
    | cons c rest =>
      have named : ¬ ("".isEmpty && (c :: rest).isEmpty) = true := by simp
      rw [if_neg named, show Text.codes "" = [] by decide, List.nil_append, take]
      simpa using back
  · have rooted : ¬ ("/".isEmpty && ps.isEmpty) = true := by simp
    rw [if_neg rooted, show Text.codes "/" = [0x2F] by decide,
      List.takeWhile_append_of_pos (by decide), take]
    simpa using back
  · have rooted : ¬ ("//".isEmpty && ps.isEmpty) = true := by simp
    rw [if_neg rooted, show Text.codes "//" = [0x2F, 0x2F] by decide,
      List.takeWhile_append_of_pos (by decide), take]
    simpa using back

theorem codes_injective {p q : PurePath} (plainP : p.Plain) (plainQ : q.Plain)
    (same : p.codes = q.codes) : p = q := by
  rw [← ofCodes_codes plainP, same, ofCodes_codes plainQ]

theorem suffixStart_dot {x w : List Char} (noDot : '.' ∉ w) (word : w ≠ []) :
    suffixStart (String.ofList (x ++ '.' :: w)) = if x = [] then none else some x.length := by
  unfold suffixStart
  simp only [String.toList_ofList]
  -- the last dot is the one before the word
  have dots : (List.range (x ++ '.' :: w).length).filter (fun i => (x ++ '.' :: w)[i]? = some '.') =
      (List.range x.length).filter (fun i => x[i]? = some '.') ++ [x.length] := by
    rw [List.length_append, List.length_cons, List.range_add, List.filter_append]
    congr 1
    · apply List.filter_congr
      intro i mem
      rw [List.getElem?_append_left (List.mem_range.1 mem)]
    · rw [List.range_succ_eq_map, List.map_cons, List.filter_cons, List.map_map]
      have here : (x ++ '.' :: w)[x.length + 0]? = some '.' := by simp
      have after : ((List.range w.length).map ((x.length + ·) ∘ Nat.succ)).filter
          (fun i => (x ++ '.' :: w)[i]? = some '.') = [] := by
        apply List.filter_eq_nil_iff.2
        intro i mem
        obtain ⟨j, inRange, rfl⟩ := List.mem_map.1 mem
        have later : (x ++ '.' :: w)[x.length + Nat.succ j]? = w[j]? := by
          rw [List.getElem?_append_right (by omega)]
          simp
        simp only [Function.comp, later, decide_eq_true_eq]
        exact fun found => noDot (List.mem_of_getElem? found)
      rw [if_pos (by simp), after, Nat.add_zero]
  rw [dots, List.getLast?_append, List.getLast?_singleton, Option.some_or]
  dsimp only
  have short : x.length < (x ++ '.' :: w).length - 1 := by
    have := List.length_pos_iff.2 word
    simp
    omega
  by_cases empty : x = []
  · subst empty
    simp
  · rw [if_pos ⟨List.length_pos_iff.2 empty, short⟩, if_neg empty]

/-- The stem of a source named `x.dspa`: `x`, or the whole name `.dspa` when `x` is empty, since
a name's leading dot starts no suffix. -/
theorem stem_dspa {p : PurePath} {x : List Char}
    (named : p.name.toList = x ++ ".dspa".toList) :
    p.stem = if x = [] then ".dspa" else String.ofList x := by
  have start : suffixStart p.name = if x = [] then none else some x.length := by
    rw [← String.ofList_toList (s := p.name), named]
    exact suffixStart_dot (w := "dspa".toList) (by decide) (by decide)
  unfold stem
  rw [start]
  by_cases empty : x = []
  · rw [if_pos empty, if_pos empty]
    apply String.toList_injective
    rw [named, empty]
    rfl
  · rw [if_neg empty, if_neg empty]
    dsimp only
    rw [named, List.take_left]

/-- The stem of a source named `x.dspa`, for `x` a text. -/
theorem stem_of_name {p : PurePath} {x : String} (named : p.name = x ++ ".dspa") :
    p.stem = if x = "" then ".dspa" else x := by
  rw [stem_dspa (x := x.toList) (by rw [named, String.toList_append])]
  by_cases empty : x = ""
  · rw [if_pos empty, if_pos (String.toList_eq_nil_iff.2 empty)]
  · rw [if_neg empty, if_neg (mt String.toList_eq_nil_iff.1 empty), String.ofList_toList]

/-- The found path `rel` relative to the folder it was found below. -/
theorem relativeTo?_append (base : PurePath) (rel : List String) :
    (⟨base.root, base.parts ++ rel⟩ : PurePath).relativeTo? base = some ⟨"", rel⟩ := by
  unfold relativeTo?
  rw [if_pos ⟨rfl, List.isPrefixOf_iff_prefix.2 (List.prefix_append _ _)⟩, List.drop_left]

theorem join_relative (p : PurePath) (parts : List String) :
    p.join ⟨"", parts⟩ = ⟨p.root, p.parts ++ parts.filter fun c => c != "." && c != ""⟩ :=
  rfl

/-- Reading back drops none of the components of a plain path. -/
theorem filter_plain {parts : List String} (plain : ∀ c ∈ parts, isPlain c = true) :
    parts.filter (fun c => c != "." && c != "") = parts := by
  apply List.filter_eq_self.2
  intro c mem
  have := plain c mem
  simp only [isPlain, Bool.and_eq_true, bne_iff_ne, ne_eq] at this ⊢
  exact ⟨this.1.2, this.1.1⟩

end Keyframes.PurePath
