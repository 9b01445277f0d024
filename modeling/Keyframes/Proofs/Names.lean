import Keyframes.Proofs.Framing

/-!
# The names of a baked timeline

A name of the line language is an identifier: one or more ASCII letters, digits, `_` and `-`.
The reader checks names with `isName`, which follows a pattern that also takes a text ending in
one line feed. A name read from a line never ends in one, as a source is cut at every line
boundary, so each name a statement reads is an identifier (`parseSource_identifiers`). Baking
writes the object name in front of every tag (`Becomes.tags`).

Without an object line, both the object and the animation name are the stem of the file name,
and a stem may end in a line feed: that is the one way a line feed enters the names of a table.

Main statement: `compileProgram_names`.
-/

namespace Keyframes.Source
open Keyframes.Text

/-- Whether a text is an identifier: one or more ASCII letters, digits, `_` and `-`. -/
def isIdentifier (s : String) : Bool :=
  !s.isEmpty && s.toList.all isNameChar

theorem isNameChar_newline : isNameChar '\n' = false := by decide

theorem isIdentifier_iff_chars {s : String} :
    isIdentifier s = true ↔ s ≠ "" ∧ ∀ c ∈ s.toList, isNameChar c = true := by
  simp [isIdentifier]

/-- A name is an identifier exactly when it does not end in a line feed. -/
theorem isIdentifier_iff {s : String} (named : isName s = true) :
    isIdentifier s = true ↔ s.toList.getLast? ≠ some '\n' := by
  unfold isName at named
  dsimp only at named
  split at named
  · rename_i last
    refine ⟨fun ident => ?_, fun notLast => absurd last notLast⟩
    have newline := (isIdentifier_iff_chars.1 ident).2 '\n' (List.mem_of_getLast? last)
    rw [isNameChar_newline] at newline
    exact absurd newline Bool.false_ne_true
  · rename_i last
    refine ⟨fun _ => last, fun _ => ?_⟩
    simp only [Bool.and_eq_true, Bool.not_eq_true', List.isEmpty_eq_false_iff,
      List.all_eq_true] at named
    exact isIdentifier_iff_chars.2 ⟨fun empty => named.1 (String.toList_eq_nil_iff.2 empty),
      named.2⟩

theorem isName_of_isIdentifier {s : String} (ident : isIdentifier s = true) : isName s = true := by
  have chars := isIdentifier_iff_chars.1 ident
  have last : s.toList.getLast? ≠ some '\n' := fun last => by
    have newline := chars.2 '\n' (List.mem_of_getLast? last)
    rw [isNameChar_newline] at newline
    exact Bool.false_ne_true newline
  unfold isName
  simp only [last, if_false, Bool.and_eq_true, Bool.not_eq_true', List.isEmpty_eq_false_iff,
    List.all_eq_true]
  exact ⟨fun empty => chars.1 (String.toList_eq_nil_iff.1 empty), chars.2⟩

theorem isIdentifier_dash {a b : String} (left : isIdentifier a = true)
    (right : isIdentifier b = true) : isIdentifier (a ++ "-" ++ b) = true := by
  rw [isIdentifier_iff_chars] at left right ⊢
  refine ⟨by simp [← String.toList_eq_nil_iff], fun c mem => ?_⟩
  simp only [String.toList_append, List.mem_append] at mem
  rcases mem with (inA | dash) | inB
  · exact left.2 c inA
  · have : c = '-' := by simpa using dash
    rw [this]
    decide
  · exact right.2 c inB

/-- A text that breaks no line does not end in a line feed. -/
theorem getLast_ne_newline {s : String} (unbroken : breaksLine s = false) :
    s.toList.getLast? ≠ some '\n' := fun last => by
  have inside := List.mem_of_getLast? last
  simp only [breaksLine, List.any_eq_false] at unbroken
  exact absurd (unbroken '\n' inside) (by decide)

/-- The names a statement reads: the two names of an object line and the entities it names. -/
def Statement.names : Statement → List String
  | .objectName o a => [o, a]
  | .translate e _ _ | .rotate e _ _ _ | .scale e _ _ | .item e _ | .text e _ | .block e _ _
  | .teleport e _ => [e]
  | .spawn source _ e => [source, e]
  | .wait _ | .placeBlock _ _ _ _ | .raw _ _ => []

theorem Statement.names_subset_texts (s : Statement) : ∀ n ∈ s.names, n ∈ s.texts := by
  cases s <;> simp [Statement.names, Statement.texts]

theorem nameArg_isName {t : Token} {e : String} (named : nameArg t = .ok e) : isName e = true := by
  unfold nameArg at named
  split at named
  · cases named
    assumption
  · cases named

theorem Words.statement_named {w : Words} {s : Statement} (read : w.statement = .ok s) :
    ∀ n ∈ s.names, isName n = true := by
  unfold Words.statement at read
  split at read
  · cases read
  · -- an object line checks both sides of its argument
    obtain ⟨_, -, read⟩ := bind_eq_ok.1 read
    dsimp only at read
    split at read
    · cases read
    · split at read
      · cases read
      · rename_i object
        split at read
        · cases read
        · rename_i animation
          cases read
          simp only [Bool.not_eq_true', Bool.not_eq_false] at object animation
          simp [Statement.names, object, animation]
  · obtain ⟨_, -, read⟩ := bind_eq_ok.1 read
    obtain ⟨_, -, read⟩ := bind_eq_ok.1 read
    cases read
    exact fun n mem => absurd mem List.not_mem_nil
  · obtain ⟨_, -, read⟩ := bind_eq_ok.1 read
    obtain ⟨e, found, read⟩ := bind_eq_ok.1 read
    obtain ⟨_, -, read⟩ := bind_eq_ok.1 read
    obtain ⟨_, -, read⟩ := bind_eq_ok.1 read
    obtain ⟨_, -, read⟩ := bind_eq_ok.1 read
    obtain ⟨_, -, read⟩ := bind_eq_ok.1 read
    cases read
    simpa [Statement.names] using nameArg_isName found
  · obtain ⟨_, -, read⟩ := bind_eq_ok.1 read
    obtain ⟨e, found, read⟩ := bind_eq_ok.1 read
    obtain ⟨_, -, read⟩ := bind_eq_ok.1 read
    obtain ⟨_, -, read⟩ := bind_eq_ok.1 read
    obtain ⟨_, -, read⟩ := bind_eq_ok.1 read
    obtain ⟨_, -, read⟩ := bind_eq_ok.1 read
    cases read
    simpa [Statement.names] using nameArg_isName found
  · obtain ⟨_, -, read⟩ := bind_eq_ok.1 read
    obtain ⟨e, found, read⟩ := bind_eq_ok.1 read
    obtain ⟨_, -, read⟩ := bind_eq_ok.1 read
    obtain ⟨_, -, read⟩ := bind_eq_ok.1 read
    obtain ⟨_, -, read⟩ := bind_eq_ok.1 read
    cases read
    simpa [Statement.names] using nameArg_isName found
  · obtain ⟨_, -, read⟩ := bind_eq_ok.1 read
    dsimp only at read
    split at read
    · cases read
    · obtain ⟨source, fromSource, read⟩ := bind_eq_ok.1 read
      obtain ⟨e, found, read⟩ := bind_eq_ok.1 read
      cases read
      simp [Statement.names, nameArg_isName fromSource, nameArg_isName found]
  · obtain ⟨_, -, read⟩ := bind_eq_ok.1 read
    obtain ⟨e, found, read⟩ := bind_eq_ok.1 read
    cases read
    simpa [Statement.names] using nameArg_isName found
  · obtain ⟨_, -, read⟩ := bind_eq_ok.1 read
    obtain ⟨e, found, read⟩ := bind_eq_ok.1 read
    cases read
    simpa [Statement.names] using nameArg_isName found
  · obtain ⟨_, -, read⟩ := bind_eq_ok.1 read
    obtain ⟨e, found, read⟩ := bind_eq_ok.1 read
    dsimp only at read
    split at read
    · cases read
      simpa [Statement.names] using nameArg_isName found
    · split at read
      · cases read
      · obtain ⟨_, -, read⟩ := bind_eq_ok.1 read
        cases read
        simpa [Statement.names] using nameArg_isName found
  · obtain ⟨_, -, read⟩ := bind_eq_ok.1 read
    obtain ⟨_, -, read⟩ := bind_eq_ok.1 read
    obtain ⟨_, -, read⟩ := bind_eq_ok.1 read
    obtain ⟨_, -, read⟩ := bind_eq_ok.1 read
    obtain ⟨e, found, read⟩ := bind_eq_ok.1 read
    cases read
    simpa [Statement.names] using nameArg_isName found
  · obtain ⟨_, -, read⟩ := bind_eq_ok.1 read
    obtain ⟨_, -, read⟩ := bind_eq_ok.1 read
    obtain ⟨_, -, read⟩ := bind_eq_ok.1 read
    obtain ⟨_, -, read⟩ := bind_eq_ok.1 read
    cases read
    exact fun n mem => absurd mem List.not_mem_nil

theorem checkLine_named {line : String} {s : Statement} (read : checkLine line = .ok (some s)) :
    ∀ n ∈ s.names, isName n = true := by
  unfold checkLine at read
  dsimp only at read
  split at read
  · -- a raw command names nothing
    split at read
    · cases read
    · cases read
      exact fun n mem => absurd mem List.not_mem_nil
  · split at read
    · cases read
    · rename_i keyword args _
      cases stated : Words.statement ⟨stripComment line.toList, keyword, args⟩ with
      | error e =>
        rw [stated] at read
        cases read
      | ok s' =>
        rw [stated] at read
        cases read
        exact Words.statement_named stated

/-- Every name a statement of a source reads is an identifier: it passed the check of names,
and it is drawn from a line, which holds no line feed. -/
theorem parseSource_identifiers {source path : String} {p : Program}
    (parsed : parseSource source path = .ok p) :
    ∀ s ∈ p.statements, ∀ n ∈ s.names, isIdentifier n = true := by
  have named : ∀ s ∈ p.statements, ∀ n ∈ s.names, isName n = true :=
    parseSource_preserves (fun _ _ _ _ read => checkLine_named (mapError_eq_ok.1 read)) parsed
  intro s kept n mem
  have unbroken := parseSource_unbroken parsed s kept n (s.names_subset_texts n mem)
  exact (isIdentifier_iff (named s kept n mem)).2 (getLast_ne_newline unbroken)

end Keyframes.Source

namespace Keyframes
open Keyframes.Source

/-- The tags an action targets, summons with or summons at. -/
def Action.tags : Action → List String
  | .merge target _ _ _ _ | .setState target _ _ => [target]
  | .summon _ tags anchor => tags ++ anchor.toList
  | .setBlock _ _ _ _ | .raw _ => []

/-- The tags of the rules of a baked timeline. -/
def Compiled.tags (c : Compiled) : List String :=
  c.table.rules.flatMap (·.action.tags)

/-- Every name of a baked timeline: its object, animation and own names and its tags. -/
def Compiled.names (c : Compiled) : List String :=
  c.objectName :: c.animationName :: c.name :: c.tags

/-- A tag of the action a statement becomes is the object name, or the object name before an
entity the statement names. -/
theorem Source.Statement.Becomes.tags {o : String} {s : Statement} {a : Action}
    (becomes : s.Becomes o a) : ∀ t ∈ a.tags, t = o ∨ ∃ e ∈ s.names, t = entityTag o e := by
  intro t mem
  cases s with
  | objectName _ _ | wait _ => exact becomes.elim
  | translate e _ _ | rotate e _ _ _ | scale e _ _ =>
    obtain ⟨vs, rfl⟩ := becomes
    exact .inr ⟨e, List.mem_singleton_self e, List.mem_singleton.1 mem⟩
  | item e _ | text e _ | block e _ _ | teleport e _ =>
    subst becomes
    exact .inr ⟨e, List.mem_singleton_self e, List.mem_singleton.1 mem⟩
  | spawn source kind e =>
    subst becomes
    simp only [Action.tags, List.mem_append, mem_tagSet, List.mem_cons, List.not_mem_nil,
      or_false, Option.mem_toList, Option.some.injEq] at mem
    rcases mem with (rfl | rfl) | rfl
    · exact .inl rfl
    · exact .inr ⟨e, by simp [Statement.names], rfl⟩
    · exact .inr ⟨source, by simp [Statement.names], rfl⟩
  | placeBlock _ _ _ _ | raw _ _ =>
    subst becomes
    exact absurd mem List.not_mem_nil

/-- Every tag of a baked timeline is its object name, or its object name before an entity named
by one of its statements. -/
theorem compileProgram_tags {p : Program} {c : Compiled} (compiled : compileProgram p = .ok c) :
    ∀ t ∈ c.tags, t = c.objectName ∨
      ∃ s ∈ p.statements, ∃ e ∈ s.names, t = entityTag c.objectName e := by
  obtain ⟨⟨o, a⟩, -, baking⟩ := bind_eq_ok.1 compiled
  obtain ⟨b, baked, done⟩ := bind_eq_ok.1 baking
  cases done
  obtain ⟨added, rules, placed⟩ := (Baker.bakeAll_run p.statements _ b baked).rules
  intro t mem
  obtain ⟨r, kept, tagged⟩ := List.mem_flatMap.1 mem
  change r ∈ b.rules.reverse at kept
  rw [rules, List.append_nil, List.reverse_reverse] at kept
  obtain ⟨e, scheduled, -, becomes⟩ := exists_of_forall₂ placed r kept
  rcases becomes.tags t tagged with same | ⟨n, named, tag⟩
  · exact .inl same
  · exact .inr ⟨e.2, mem_schedule (List.mem_filter.1 scheduled).1, n, named, tag⟩

/-- The names a program gives its timeline are names; they are identifiers exactly when the
program has an object line or its file stem does not end in a line feed. -/
theorem programNames_names {p : Program} {o a : String} (named : programNames p = .ok (o, a))
    (identifiers : ∀ s ∈ p.statements, ∀ n ∈ s.names, isIdentifier n = true) :
    isName o = true ∧ isName a = true ∧
      ((isIdentifier o = true ∧ isIdentifier a = true) ↔
        (∃ o' a', Statement.objectName o' a' ∈ p.statements) ∨
          (PurePath.ofString p.path).stem.toList.getLast? ≠ some '\n') := by
  unfold programNames at named
  split at named
  · -- the names of the first object line
    rename_i names found
    obtain ⟨s, kept, object⟩ := List.exists_of_findSome?_eq_some found
    split at object
    · cases object
      simp only [Except.ok.injEq, Prod.mk.injEq] at named
      rw [named.1, named.2] at kept
      have left := identifiers _ kept o (by simp [Statement.names])
      have right := identifiers _ kept a (by simp [Statement.names])
      exact ⟨isName_of_isIdentifier left, isName_of_isIdentifier right,
        iff_of_true ⟨left, right⟩ (.inl ⟨o, a, kept⟩)⟩
    · cases object
  · -- the stem twice, when it is a name
    rename_i absent
    have noObject : ¬ ∃ o' a', Statement.objectName o' a' ∈ p.statements := by
      rintro ⟨o', a', kept⟩
      cases List.findSome?_eq_none_iff.1 absent _ kept
    dsimp only at named
    split at named
    · rename_i stemNamed
      simp only [Except.ok.injEq, Prod.mk.injEq] at named
      obtain ⟨rfl, rfl⟩ := named
      refine ⟨stemNamed, stemNamed, ?_⟩
      rw [and_self, isIdentifier_iff stemNamed, or_iff_right noObject]
    · cases named

/-- The names of a baked timeline. The object and animation names are names: identifiers,
perhaps followed by one line feed. Every tag is the object name, or the object name before an
identifier. All names are identifiers exactly when the source has an object line or the stem of
its file name does not end in a line feed. -/
theorem compileProgram_names {source path : String} {p : Program} {c : Compiled}
    (parsed : parseSource source path = .ok p) (compiled : compileProgram p = .ok c) :
    isName c.objectName = true ∧ isName c.animationName = true ∧
      (∀ t ∈ c.tags, t = c.objectName ∨
        ∃ e, isIdentifier e = true ∧ t = entityTag c.objectName e) ∧
      ((∀ n ∈ c.names, isIdentifier n = true) ↔
        (∃ o a, Statement.objectName o a ∈ p.statements) ∨
          (PurePath.ofString path).stem.toList.getLast? ≠ some '\n') := by
  have identifiers := parseSource_identifiers parsed
  have atPath : p.path = path := by
    unfold parseSource at parsed
    obtain ⟨r, -, parsed⟩ := bind_eq_ok.1 parsed
    split at parsed
    · cases parsed
      rfl
    · cases parsed
  obtain ⟨⟨o, a⟩, named, baking⟩ := bind_eq_ok.1 compiled
  obtain ⟨b, -, done⟩ := bind_eq_ok.1 baking
  have object : c.objectName = o := by cases done; rfl
  have animation : c.animationName = a := by cases done; rfl
  obtain ⟨objectNamed, animationNamed, plain⟩ := programNames_names named identifiers
  rw [← atPath, ← plain]
  have tags : ∀ t ∈ c.tags, t = c.objectName ∨
      ∃ e, isIdentifier e = true ∧ t = entityTag c.objectName e := by
    intro t mem
    rcases compileProgram_tags compiled t mem with same | ⟨s, kept, e, inNames, tag⟩
    · exact .inl same
    · exact .inr ⟨e, identifiers s kept e inNames, tag⟩
  refine ⟨object ▸ objectNamed, animation ▸ animationNamed, tags, ?_, ?_⟩
  · intro all
    rw [← object, ← animation]
    exact ⟨all _ List.mem_cons_self, all _ (List.mem_cons_of_mem _ List.mem_cons_self)⟩
  · rintro ⟨left, right⟩ n mem
    rw [← object] at left
    rw [← animation] at right
    simp only [Compiled.names, List.mem_cons] at mem
    rcases mem with rfl | rfl | rfl | tagged
    · exact left
    · exact right
    · exact isIdentifier_dash left right
    · rcases tags n tagged with rfl | ⟨e, ident, rfl⟩
      · exact left
      · exact isIdentifier_dash left ident

/-- A gate with an object line: a hinge spawned at the gate, moved and given a block. -/
def gateSource : String :=
  "object gate:swing\nspawn gate block_display hinge\nm hinge ~ ~1 0 4\nblock hinge oak_fence"

theorem compileProgram_names_gate :
    ∃ p c, parseSource gateSource "gate\n.dspa" = .ok p ∧ compileProgram p = .ok c ∧
      isName c.objectName = true ∧ isName c.animationName = true ∧
      (∀ t ∈ c.tags, t = c.objectName ∨
        ∃ e, isIdentifier e = true ∧ t = entityTag c.objectName e) ∧
      ((∀ n ∈ c.names, isIdentifier n = true) ↔
        (∃ o a, Statement.objectName o a ∈ p.statements) ∨
          (PurePath.ofString "gate\n.dspa").stem.toList.getLast? ≠ some '\n') :=
  have parsed := eq_ok_of_toBool default (by decide +kernel :
    (parseSource gateSource "gate\n.dspa").toBool = true)
  have compiled := eq_ok_of_toBool default (by decide +kernel :
    (compileProgram ((parseSource gateSource "gate\n.dspa").toOption.getD default)).toBool = true)
  ⟨_, _, parsed, compiled, compileProgram_names parsed compiled⟩

/-- Without an object line, a file whose stem ends in a line feed names its timeline, and the
tag of every entity, with that line feed: the names of the table are not all identifiers. -/
theorem compileProgram_newlineStem :
    ∃ p c, parseSource "m e 1 2 3 4" "abc\n.dspa" = .ok p ∧ compileProgram p = .ok c ∧
      ¬ ∀ n ∈ c.names, isIdentifier n = true :=
  ⟨_, _, eq_ok_of_toBool default (by decide +kernel),
    eq_ok_of_toBool default (by decide +kernel),
    fun all => absurd (all _ List.mem_cons_self) (by decide +kernel)⟩

end Keyframes
