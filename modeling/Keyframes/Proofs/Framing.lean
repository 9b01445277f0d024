import Keyframes.Proofs.ScriptLines
import Keyframes.Proofs.Parsed
import Keyframes.Proofs.Reload

/-!
# Scripts cut into their lines

A source is cut into lines at every line boundary, and every text a statement keeps is drawn
from the characters of its line (`checkLine_texts`): tokens, the rest of a line, the parts of
a block state and the pieces of an object name. So no text of a statement that reads breaks a
line (`parseSource_unbroken`). Baking writes those texts into the actions, behind the object
name (`Becomes.unbroken`), so the document of a baked timeline whose name does not break has
no text that breaks a line of its script (`compileProgram_unbroken`).

Then the script of a timeline is its layout, line by line, and every rule's line carries the
guard of its offset (`renderDocument_framed`). A name read from an object line never breaks; a
name taken from a file stem breaks when the stem ends in a line feed, which names accept.
-/

namespace Keyframes.Source
open Keyframes.Text

/-- The texts a statement keeps of its line. -/
def Statement.texts : Statement → List String
  | .objectName o a => [o, a]
  | .wait _ => []
  | .translate e _ _ | .rotate e _ _ _ | .scale e _ _ | .teleport e _ => [e]
  | .spawn source _ e => [source, e]
  | .item e i | .text e i => [e, i]
  | .block e blockId props => e :: blockId :: props.flatMap fun p => [p.1, p.2]
  | .placeBlock _ _ _ blockId => [blockId]
  | .raw command _ => [command]

/-- A statement none of whose texts breaks a line. -/
def Statement.Unbroken (s : Statement) : Prop :=
  ∀ t ∈ s.texts, breaksLine t = false

theorem trim_subset (cs : List Char) : trim cs ⊆ cs := fun c mem => by
  rw [trim_eq, List.mem_reverse] at mem
  have inner := List.mem_reverse.1 ((List.dropWhile_sublist isBlank).subset mem)
  exact (List.dropWhile_sublist isBlank).subset inner

theorem stripCommentFrom_subset (quoted : Bool) :
    ∀ cs : List Char, stripCommentFrom quoted cs ⊆ cs
  | [] => List.Subset.refl _
  | c :: rest => by
    unfold stripCommentFrom
    split
    · exact List.cons_subset_cons c (stripCommentFrom_subset _ rest)
    · split
      · exact List.nil_subset _
      · exact List.cons_subset_cons c (stripCommentFrom_subset _ rest)

theorem pendingToken_subset {current : List Char} {start : Nat} :
    ∀ t ∈ pendingToken current start, t.text.toList ⊆ current := by
  unfold pendingToken
  split
  · intro t mem
    cases mem
  · intro t mem
    rw [List.mem_singleton.1 mem, String.toList_ofList]
    exact fun c inText => List.mem_reverse.1 inText

theorem tokensFrom_subset {S : List Char} :
    ∀ (col : Nat) (current : List Char) (start : Nat) (cs : List Char), current ⊆ S →
      cs ⊆ S → ∀ t ∈ tokensFrom col current start cs, t.text.toList ⊆ S
  | col, current, start, [], held, _ => fun t mem => List.Subset.trans (pendingToken_subset t mem) held
  | col, current, start, c :: rest, held, within => by
    have here : c ∈ S := within List.mem_cons_self
    have later : rest ⊆ S := fun d mem => within (List.mem_cons_of_mem c mem)
    unfold tokensFrom
    split
    · intro t mem
      rcases List.mem_append.1 mem with pending | after
      · exact List.Subset.trans (pendingToken_subset t pending) held
      · exact tokensFrom_subset _ [] 0 rest (List.nil_subset _) later t after
    · split
      · exact tokensFrom_subset _ [c] col rest (List.cons_subset.2 ⟨here, List.nil_subset _⟩)
          later
      · exact tokensFrom_subset _ (c :: current) start rest (List.cons_subset.2 ⟨here, held⟩)
          later

theorem tokens_subset (cs : List Char) : ∀ t ∈ tokens cs, t.text.toList ⊆ cs :=
  tokensFrom_subset 1 [] 0 cs (List.nil_subset _) (List.Subset.refl _)

theorem joinFrom_subset {S : List Char} :
    ∀ (pending : Option Token) (ts : List Token), (∀ p ∈ pending, p.text.toList ⊆ S) →
      (∀ t ∈ ts, t.text.toList ⊆ S) → ∀ t ∈ joinFrom pending ts, t.text.toList ⊆ S
  | pending, [], held, _ => fun t mem => held t (Option.mem_toList.1 mem)
  | some p, t :: rest, held, within => by
    have joined : (p.text ++ t.text).toList ⊆ S := by
      rw [String.toList_append]
      exact List.append_subset.2 ⟨held p rfl, within t List.mem_cons_self⟩
    have later : ∀ u ∈ rest, u.text.toList ⊆ S := fun u mem => within u (List.mem_cons_of_mem t mem)
    unfold joinFrom
    dsimp only
    split
    · intro u mem
      rcases List.mem_cons.1 mem with rfl | after
      · exact joined
      · exact joinFrom_subset none rest (fun p absent => absurd absent (Option.not_mem_none p))
          later u after
    · exact joinFrom_subset (some ⟨p.text ++ t.text, p.column⟩) rest
        (fun q found => by cases found; exact joined) later
  | none, t :: rest, _, within => by
    have later : ∀ u ∈ rest, u.text.toList ⊆ S := fun u mem => within u (List.mem_cons_of_mem t mem)
    unfold joinFrom
    dsimp only
    split
    · exact joinFrom_subset (some t) rest
        (fun q found => by cases found; exact within t List.mem_cons_self) later
    · intro u mem
      rcases List.mem_cons.1 mem with rfl | after
      · exact within u List.mem_cons_self
      · exact joinFrom_subset none rest (fun p absent => absurd absent (Option.not_mem_none p))
          later u after

/-- Words whose keyword and arguments are drawn from their text. -/
def Words.Drawn (w : Words) : Prop :=
  w.keyword.text.toList ⊆ w.text ∧ ∀ t ∈ w.args, t.text.toList ⊆ w.text

theorem Words.Drawn.arg {w : Words} (drawn : w.Drawn) (i : Nat) :
    (w.arg i).text.toList ⊆ w.text := by
  unfold Words.arg
  rw [List.getD_eq_getElem?_getD]
  cases found : w.args[i]? with
  | none => exact drawn.1
  | some t => exact drawn.2 t (List.mem_of_getElem? found)

theorem Words.Drawn.joinBrackets {w : Words} (drawn : w.Drawn) :
    Words.Drawn { w with args := Source.joinBrackets w.args } :=
  ⟨drawn.1, joinFrom_subset none w.args (fun p absent => absurd absent (Option.not_mem_none p))
    drawn.2⟩

theorem Words.rest_subset (w : Words) (i : Nat) : (w.rest i).toList ⊆ w.text := by
  unfold Words.rest
  rw [String.toList_ofList]
  exact List.Subset.trans (trim_subset _) (List.drop_subset _ _)

theorem nameArg_eq {t : Token} {e : String} (named : nameArg t = .ok e) : e = t.text := by
  unfold nameArg at named
  split at named
  · cases named
    rfl
  · cases named

theorem splitAtFirst_subset (sep : Char) (cs : List Char) :
    (splitAtFirst sep cs).1 ⊆ cs ∧ (splitAtFirst sep cs).2 ⊆ cs :=
  ⟨(List.takeWhile_sublist _).subset,
    List.Subset.trans (List.drop_subset _ _) (List.dropWhile_sublist _).subset⟩

theorem piecesOf_subset (sep : Char) : ∀ cs : List Char, ∀ p ∈ piecesOf sep cs, p ⊆ cs
  | [] => fun p mem => by
    rw [List.mem_singleton.1 mem]
    exact List.nil_subset _
  | c :: rest => by
    have pieces := piecesOf_subset sep rest
    unfold piecesOf
    split
    · intro p mem
      rw [List.mem_singleton.1 mem]
      exact List.cons_subset_cons c (List.nil_subset _)
    · rename_i first more found
      rw [found] at pieces
      split
      · intro p mem
        rcases List.mem_cons.1 mem with rfl | mem
        · exact List.nil_subset _
        · exact List.Subset.trans (pieces p mem) (List.subset_cons_self c rest)
      · intro p mem
        rcases List.mem_cons.1 mem with rfl | mem
        · exact List.cons_subset_cons c (pieces first List.mem_cons_self)
        · exact List.Subset.trans (pieces p (List.mem_cons_of_mem _ mem))
            (List.subset_cons_self c rest)

theorem blockProperties_subset {stateToken : Token} {state : String} {body : List Char}
    {props : List (String × String)} (read : blockProperties stateToken state body = .ok props) :
    ∀ p ∈ props, p.1.toList ⊆ body ∧ p.2.toList ⊆ body := by
  unfold blockProperties at read
  split at read
  · cases read
    nofun
  · intro p mem
    obtain ⟨part, inPieces, made⟩ := exists_of_mapM_eq_ok read p mem
    have pieces := piecesOf_subset ',' body part inPieces
    have halves := splitAtFirst_subset '=' part
    split at made
    · cases made
      simp only [String.toList_ofList]
      exact ⟨List.Subset.trans (trim_subset _) (List.Subset.trans halves.1 pieces),
        List.Subset.trans (trim_subset _) (List.Subset.trans halves.2 pieces)⟩
    · cases made

theorem Words.statement_texts {w : Words} {s : Statement} (drawn : w.Drawn)
    (read : w.statement = .ok s) : ∀ t ∈ s.texts, t.toList ⊆ w.text := by
  have named : ∀ {i e}, nameArg (w.arg i) = .ok e → e.toList ⊆ w.text := fun found => by
    rw [nameArg_eq found]
    exact drawn.arg _
  have rest := w.rest_subset 1
  unfold Words.statement at read
  split at read
  · cases read
  · -- an object line keeps the two sides of its argument
    obtain ⟨_, -, read⟩ := bind_eq_ok.1 read
    dsimp only at read
    split at read
    · cases read
    · split at read
      · cases read
      · split at read
        · cases read
        · cases read
          have halves := splitAtFirst_subset ':' (w.arg 0).text.toList
          simp only [Statement.texts, List.mem_cons, List.not_mem_nil, or_false,
            forall_eq_or_imp, forall_eq, String.toList_ofList]
          exact ⟨List.Subset.trans halves.1 (drawn.arg 0), List.Subset.trans halves.2 (drawn.arg 0)⟩
  · -- a wait keeps no text
    obtain ⟨_, -, read⟩ := bind_eq_ok.1 read
    obtain ⟨_, -, read⟩ := bind_eq_ok.1 read
    cases read
    nofun
  · obtain ⟨_, -, read⟩ := bind_eq_ok.1 read
    obtain ⟨e, found, read⟩ := bind_eq_ok.1 read
    obtain ⟨_, -, read⟩ := bind_eq_ok.1 read
    obtain ⟨_, -, read⟩ := bind_eq_ok.1 read
    obtain ⟨_, -, read⟩ := bind_eq_ok.1 read
    obtain ⟨_, -, read⟩ := bind_eq_ok.1 read
    cases read
    simpa [Statement.texts] using named found
  · obtain ⟨_, -, read⟩ := bind_eq_ok.1 read
    obtain ⟨e, found, read⟩ := bind_eq_ok.1 read
    obtain ⟨_, -, read⟩ := bind_eq_ok.1 read
    obtain ⟨_, -, read⟩ := bind_eq_ok.1 read
    obtain ⟨_, -, read⟩ := bind_eq_ok.1 read
    obtain ⟨_, -, read⟩ := bind_eq_ok.1 read
    cases read
    simpa [Statement.texts] using named found
  · -- a rotation reads its arguments after the bracketed axis is joined
    obtain ⟨_, -, read⟩ := bind_eq_ok.1 read
    obtain ⟨e, found, read⟩ := bind_eq_ok.1 read
    obtain ⟨_, -, read⟩ := bind_eq_ok.1 read
    obtain ⟨_, -, read⟩ := bind_eq_ok.1 read
    obtain ⟨_, -, read⟩ := bind_eq_ok.1 read
    cases read
    simpa [Statement.texts, nameArg_eq found] using drawn.joinBrackets.arg 0
  · obtain ⟨_, -, read⟩ := bind_eq_ok.1 read
    dsimp only at read
    split at read
    · cases read
    · obtain ⟨source, fromSource, read⟩ := bind_eq_ok.1 read
      obtain ⟨e, found, read⟩ := bind_eq_ok.1 read
      cases read
      simp [Statement.texts, named fromSource, named found]
  · obtain ⟨_, -, read⟩ := bind_eq_ok.1 read
    obtain ⟨e, found, read⟩ := bind_eq_ok.1 read
    cases read
    simp [Statement.texts, named found, rest]
  · obtain ⟨_, -, read⟩ := bind_eq_ok.1 read
    obtain ⟨e, found, read⟩ := bind_eq_ok.1 read
    cases read
    simp [Statement.texts, named found, rest]
  · -- a block keeps its id and the names and values of its properties
    obtain ⟨_, -, read⟩ := bind_eq_ok.1 read
    obtain ⟨e, found, read⟩ := bind_eq_ok.1 read
    dsimp only at read
    split at read
    · cases read
      simp [Statement.texts, named found, rest]
    · split at read
      · cases read
      · obtain ⟨props, propsRead, read⟩ := bind_eq_ok.1 read
        cases read
        have halves := splitAtFirst_subset '[' (w.rest 1).toList
        have body : trim (splitAtFirst '[' (w.rest 1).toList).2.dropLast ⊆ w.text :=
          List.Subset.trans (trim_subset _) (List.Subset.trans (List.dropLast_sublist _).subset
            (List.Subset.trans halves.2 rest))
        have each := blockProperties_subset propsRead
        intro t mem
        simp only [Statement.texts, List.mem_cons, List.mem_flatMap, List.not_mem_nil,
          or_false] at mem
        rcases mem with rfl | rfl | ⟨p, inProps, rfl | rfl⟩
        · exact named found
        · rw [String.toList_ofList]
          exact List.Subset.trans (trim_subset _) (List.Subset.trans halves.1 rest)
        · exact List.Subset.trans (each p inProps).1 body
        · exact List.Subset.trans (each p inProps).2 body
  · obtain ⟨_, -, read⟩ := bind_eq_ok.1 read
    obtain ⟨_, -, read⟩ := bind_eq_ok.1 read
    obtain ⟨_, -, read⟩ := bind_eq_ok.1 read
    obtain ⟨_, -, read⟩ := bind_eq_ok.1 read
    obtain ⟨e, found, read⟩ := bind_eq_ok.1 read
    cases read
    simpa [Statement.texts] using named found
  · obtain ⟨_, -, read⟩ := bind_eq_ok.1 read
    obtain ⟨_, -, read⟩ := bind_eq_ok.1 read
    obtain ⟨_, -, read⟩ := bind_eq_ok.1 read
    obtain ⟨_, -, read⟩ := bind_eq_ok.1 read
    cases read
    simpa [Statement.texts] using drawn.arg 3

theorem checkLine_texts {line : String} {s : Statement} (read : checkLine line = .ok (some s)) :
    ∀ t ∈ s.texts, t.toList ⊆ line.toList := by
  unfold checkLine at read
  dsimp only at read
  split at read
  · -- a raw command is what is left of the trimmed line after its slashes
    rename_i stripped
    split at read
    · cases read
    · cases read
      simp only [Statement.texts, List.mem_singleton, forall_eq, String.toList_ofList]
      exact List.Subset.trans (trim_subset _) (List.Subset.trans (List.dropWhile_sublist _).subset
        (stripped ▸ trim_subset line.toList))
  · split at read
    · cases read
    · rename_i keyword args found
      have drawn : Words.Drawn ⟨stripComment line.toList, keyword, args⟩ :=
        ⟨tokens_subset _ keyword (by rw [found]; exact List.mem_cons_self),
          fun t mem => tokens_subset _ t (by rw [found]; exact List.mem_cons_of_mem keyword mem)⟩
      cases stated : Words.statement ⟨stripComment line.toList, keyword, args⟩ with
      | error e =>
        rw [stated] at read
        cases read
      | ok s' =>
        rw [stated] at read
        cases read
        exact fun t mem => List.Subset.trans (Words.statement_texts drawn stated t mem)
          (stripCommentFrom_subset false _)

theorem readLine_unbroken {path : String} {number : Int} {line : List Char} {s : Statement}
    (solid : line.any isLineBoundary = false)
    (read : readLine path number (String.ofList line) = .ok (some s)) : s.Unbroken := by
  intro t mem
  have drawn := checkLine_texts (mapError_eq_ok.1 read) t mem
  rw [String.toList_ofList] at drawn
  simp only [breaksLine, List.any_eq_false] at solid ⊢
  exact fun c inText => solid c (drawn inText)

theorem parseSource_unbroken {source path : String} {p : Program}
    (parsed : parseSource source path = .ok p) : ∀ s ∈ p.statements, s.Unbroken :=
  parseSource_preserves (fun _ mem _ _ read => readLine_unbroken (lines_unbroken mem) read) parsed

end Keyframes.Source

namespace Keyframes
open Keyframes.Text Keyframes.Json Keyframes.Source

theorem exists_of_forall₂ {α β : Type} {R : α → β → Prop} :
    ∀ {l : List α} {l' : List β}, List.Forall₂ R l l' → ∀ a ∈ l, ∃ b ∈ l', R a b
  | _, _, .nil => nofun
  | _, _, .cons head tail => fun a mem => by
    rcases List.mem_cons.1 mem with rfl | later
    · exact ⟨_, List.mem_cons_self, head⟩
    · obtain ⟨b, kept, related⟩ := exists_of_forall₂ tail a later
      exact ⟨b, List.mem_cons_of_mem _ kept, related⟩

theorem mem_schedule : ∀ {start : Nat} {ss : List Statement} {e : Nat × Statement},
    e ∈ schedule start ss → e.2 ∈ ss
  | _, [], _, mem => by simp [schedule] at mem
  | start, s :: rest, e, mem => by
    rw [schedule, List.mem_cons] at mem
    rcases mem with rfl | later
    · exact List.mem_cons_self
    · exact List.mem_cons_of_mem s (mem_schedule later)

theorem Source.Statement.everyTick?_eq_some {s : Statement} {command : String}
    (found : s.everyTick? = some command) : s = .raw command false := by
  unfold Statement.everyTick? at found
  split at found
  · cases found
    rfl
  · cases found

theorem mem_setField {κ : Type} [DecidableEq κ] {f : κ × Value} {key : κ} {v : Value} :
    ∀ {fields : List (κ × Value)}, f ∈ setField fields key v → f ∈ fields ∨ f = (key, v)
  | [], mem => Or.inr (List.mem_singleton.1 mem)
  | g :: rest, mem => by
    unfold setField at mem
    split at mem
    · rcases List.mem_cons.1 mem with rfl | later
      · exact Or.inr rfl
      · exact Or.inl (List.mem_cons_of_mem g later)
    · rcases List.mem_cons.1 mem with rfl | later
      · exact Or.inl List.mem_cons_self
      · rcases mem_setField later with kept | same
        · exact Or.inl (List.mem_cons_of_mem g kept)
        · exact Or.inr same

theorem mem_foldl_setField {κ : Type} [DecidableEq κ] {f : κ × Value} :
    ∀ (l acc : List (κ × Value)), f ∈ l.foldl (fun acc g => setField acc g.1 g.2) acc →
      f ∈ acc ∨ f ∈ l
  | [], acc, mem => Or.inl mem
  | g :: rest, acc, mem => by
    rw [List.foldl_cons] at mem
    rcases mem_foldl_setField rest _ mem with kept | later
    · rcases mem_setField kept with old | rfl
      · exact Or.inl old
      · exact Or.inr List.mem_cons_self
    · exact Or.inr (List.mem_cons_of_mem g later)

@[simp] theorem Json.Value.written_str (s : String) : (Value.str s).written = [s] := rfl

theorem objOfFields_written {l : List (String × Value)}
    (each : ∀ f ∈ l, breaksLine f.1 = false ∧ breaksLine f.2.show = false) :
    ∀ t ∈ (objOfFields l).written, breaksLine t = false := by
  intro t mem
  unfold objOfFields Json.Value.written at mem
  rcases List.mem_cons.1 mem with rfl | inFields
  · exact repr_unbroken (.obj _)
  · obtain ⟨f, kept, inPair⟩ := List.mem_flatMap.1 inFields
    rcases mem_foldl_setField l [] kept with none | original
    · cases none
    · have halves := each f original
      simp only [List.mem_cons, List.not_mem_nil, or_false] at inPair
      rcases inPair with rfl | rfl
      · exact halves.1
      · exact halves.2

theorem Action.unbroken_setState {target : String} {kind : StateKind}
    {payload : List (String × Value)} (targeted : breaksLine target = false)
    (written : ∀ f ∈ payload, ∀ t ∈ f.2.written, breaksLine t = false) :
    (Action.setState target kind payload).Unbroken := by
  intro t mem
  rcases List.mem_cons.1 mem with rfl | inPayload
  · exact targeted
  · obtain ⟨f, kept, inWritten⟩ := List.mem_flatMap.1 inPayload
    exact written f kept t inWritten

theorem Source.Statement.Becomes.unbroken {o : String} {s : Statement} {a : Action}
    (becomes : s.Becomes o a) (named : breaksLine o = false) (unbroken : s.Unbroken) :
    a.Unbroken := by
  have tagged : ∀ e ∈ s.texts, breaksLine (entityTag o e) = false := fun e mem => by
    rw [entityTag, breaksLine_append, breaksLine_append, named, unbroken e mem]
    decide
  -- a payload of one text
  have single : ∀ {k t : String}, t ∈ s.texts →
      ∀ f ∈ [(k, Value.str t)], ∀ u ∈ f.2.written, breaksLine u = false := by
    intro k t kept f mem u written
    rw [List.mem_singleton.1 mem, Json.Value.written_str, List.mem_singleton] at written
    rw [written]
    exact unbroken t kept
  cases s with
  | objectName _ _ => exact becomes.elim
  | wait _ => exact becomes.elim
  | translate e _ _ | rotate e _ _ _ | scale e _ _ =>
    obtain ⟨vs, rfl⟩ := becomes
    simpa [Action.Unbroken, Action.texts] using tagged e (by simp [Statement.texts])
  | spawn source kind e =>
    subst becomes
    intro t mem
    simp only [Action.texts, List.mem_append, Option.mem_toList, Option.some.injEq] at mem
    rcases mem with inTags | rfl
    · rcases List.mem_cons.1 (mem_tagSet.1 inTags) with rfl | inTag
      · exact named
      · rw [List.mem_singleton.1 inTag]
        exact tagged e (by simp [Statement.texts])
    · exact tagged source (by simp [Statement.texts])
  | item e i =>
    subst becomes
    exact Action.unbroken_setState (tagged e (by simp [Statement.texts]))
      (single (by simp [Statement.texts]))
  | text e t =>
    subst becomes
    exact Action.unbroken_setState (tagged e (by simp [Statement.texts]))
      (single (by simp [Statement.texts]))
  | block e blockId props =>
    subst becomes
    refine Action.unbroken_setState (tagged e (by simp [Statement.texts])) ?_
    intro f mem
    rcases List.mem_cons.1 mem with rfl | mem
    · exact single (by simp [Statement.texts]) _ List.mem_cons_self
    · rw [List.mem_singleton.1 mem]
      -- the properties are the block's names and values, as texts
      refine objOfFields_written fun g kept => ?_
      obtain ⟨⟨n, v⟩, inProps, rfl⟩ := List.mem_map.1 kept
      have listed : ∀ t ∈ [n, v], t ∈ (Statement.block e blockId props).texts := fun t mem =>
        List.mem_cons_of_mem _ (List.mem_cons_of_mem _ (List.mem_flatMap.2 ⟨(n, v), inProps, mem⟩))
      exact ⟨unbroken n (listed n List.mem_cons_self),
        unbroken v (listed v (List.mem_cons_of_mem n List.mem_cons_self))⟩
  | teleport e _ =>
    subst becomes
    refine Action.unbroken_setState (tagged e (by simp [Statement.texts])) ?_
    intro f mem u written
    rw [List.mem_singleton.1 mem] at written
    rw [List.mem_singleton.1 written]
    exact repr_unbroken _
  | placeBlock _ _ _ blockId =>
    subst becomes
    simpa [Action.Unbroken, Action.texts] using unbroken blockId (by simp [Statement.texts])
  | raw command _ =>
    subst becomes
    simpa [Action.Unbroken, Action.texts] using unbroken command (by simp [Statement.texts])

theorem compileProgram_unbroken {p : Program} {c : Compiled} (compiled : compileProgram p = .ok c)
    (statements : ∀ s ∈ p.statements, s.Unbroken) (named : breaksLine c.name = false) :
    c.document.Unbroken := by
  obtain ⟨⟨o, a⟩, -, baking⟩ := bind_eq_ok.1 compiled
  obtain ⟨b, baked, done⟩ := bind_eq_ok.1 baking
  cases done
  have run := Baker.bakeAll_run p.statements _ b baked
  obtain ⟨added, rules, placed⟩ := run.rules
  -- the object's name starts the timeline's name
  have object : breaksLine o = false := by
    simp only [Compiled.name, timelineName, breaksLine_append, Bool.or_eq_false_iff] at named
    exact named.1.1
  refine ⟨named, ?_, ?_⟩
  · -- the every-tick commands are raw statements
    intro command mem
    change command ∈ b.everyTick.reverse at mem
    rw [run.everyTick, List.append_nil, List.reverse_reverse] at mem
    obtain ⟨s, kept, found⟩ := List.mem_filterMap.1 mem
    rw [Statement.everyTick?_eq_some found] at kept
    exact statements _ kept command List.mem_cons_self
  · -- every rule is what a statement becomes
    intro r mem
    change r ∈ b.rules.reverse at mem
    rw [rules, List.append_nil, List.reverse_reverse] at mem
    obtain ⟨e, scheduled, -, becomes⟩ := exists_of_forall₂ placed r mem
    exact becomes.unbroken object (statements e.2 (mem_schedule (List.mem_filter.1 scheduled).1))

theorem compileProgram_name_unbroken {p : Program} {c : Compiled}
    (compiled : compileProgram p = .ok c) (statements : ∀ s ∈ p.statements, s.Unbroken)
    (stem : (∃ o a, Statement.objectName o a ∈ p.statements) ∨
      breaksLine (PurePath.ofString p.path).stem = false) : breaksLine c.name = false := by
  obtain ⟨⟨o, a⟩, names, baking⟩ := bind_eq_ok.1 compiled
  obtain ⟨b, -, done⟩ := bind_eq_ok.1 baking
  cases done
  -- the names are those of the object line, or else the stem twice
  have both : breaksLine o = false ∧ breaksLine a = false := by
    unfold programNames at names
    split at names
    · rename_i found
      cases names
      obtain ⟨s, kept, named⟩ := List.exists_of_findSome?_eq_some found
      split at named
      · cases named
        exact ⟨statements _ kept o List.mem_cons_self,
          statements _ kept a (List.mem_cons_of_mem _ List.mem_cons_self)⟩
      · cases named
    · rename_i none
      rcases stem with ⟨o', a', object⟩ | stem
      · -- an object line would have named the timeline
        cases List.findSome?_eq_none_iff.1 none _ object
      dsimp only at names
      split at names
      · simp only [Except.ok.injEq, Prod.mk.injEq] at names
        obtain ⟨rfl, rfl⟩ := names
        exact ⟨stem, stem⟩
      · cases names
  rw [Compiled.name, timelineName, breaksLine_append, breaksLine_append, both.1, both.2]
  decide

/-- A script framed by its timeline: cut at its line boundaries, it is the notice, a blank
line, the every-tick commands, for each rule in order its rendered line, which starts with
`execute` and carries the rule's guard, a blank line, the two reset lines and the advance. -/
def Framed (c : Compiled) (script : String) : Prop :=
  ∃ ruleLines, List.Forall₂ (fun r line => renderAction c.name r.offset r.action = .ok line ∧
      Guarded c.name r.offset line) c.table.rules ruleLines ∧
    lines script.toList = (scriptLines c.name c.table c.everyTick ruleLines).map String.toList

theorem Framed.lines_length {c : Compiled} {script : String} (framed : Framed c script) :
    (lines script.toList).length = c.everyTick.length + c.table.rules.length + 7 := by
  obtain ⟨ruleLines, each, cut⟩ := framed
  rw [cut, List.length_map, each.length_eq]
  simp [scriptLines, notice, renderReset]
  omega

theorem Framed.name_unbroken {c : Compiled} {script : String} (framed : Framed c script) :
    breaksLine c.name = false := by
  -- the line that advances the timer is whole, and it holds the name
  obtain ⟨ruleLines, -, cut⟩ := framed
  have kept : renderIncrement c.name ∈ scriptLines c.name c.table c.everyTick ruleLines := by
    unfold scriptLines
    exact List.mem_append_right _ (List.mem_singleton_self _)
  have whole : breaksLine (renderIncrement c.name) = false := by
    unfold breaksLine
    exact lines_unbroken (cut ▸ List.mem_map_of_mem kept)
  unfold renderIncrement holder at whole
  simp only [breaksLine_append, Bool.or_eq_false_iff] at whole
  exact whole.1.2.2

/-- The script of a timeline read from a source is framed by it exactly when the timeline's
name holds no line boundary. -/
theorem renderDocument_framed_iff {source path : String} {p : Program} {c : Compiled}
    {script : String} (parsed : parseSource source path = .ok p)
    (compiled : compileProgram p = .ok c) (rendered : renderDocument c.document = .ok script) :
    Framed c script ↔ breaksLine c.name = false := by
  refine ⟨Framed.name_unbroken, fun named => ?_⟩
  have unbroken := compileProgram_unbroken compiled (parseSource_unbroken parsed) named
  obtain ⟨ruleLines, each, cut⟩ := renderDocument_lines unbroken rendered
  exact ⟨ruleLines, each.imp fun r line made => ⟨made, renderAction_guarded made⟩, cut⟩

/-- A lift that rises: it names its object, moves its cabin up over four ticks, waits, sets the
cabin's block with a property and its text, and runs a command on every tick. -/
def liftSource : String :=
  "object lift:rise\nm cabin ~ ~1 0 4\nwait 5\nblock cabin oak_door[open=true]\n" ++
    "text cabin up\n// say tick"

theorem renderDocument_framed_lift :
    Framed ((compileProgram ((parseSource liftSource "lift.dspa").toOption.getD default)).toOption.getD
        default)
      ((renderDocument ((compileProgram ((parseSource liftSource "lift.dspa").toOption.getD
        default)).toOption.getD default).document).toOption.getD "") :=
  (renderDocument_framed_iff (eq_ok_of_toBool default (by decide +kernel))
    (eq_ok_of_toBool default (by decide +kernel)) (eq_ok_of_toBool "" (by decide +kernel))).2
    (by decide +kernel)

/-- A file whose stem ends in a line feed names its timeline with that line feed when it has no
object line, and names accept it: the script of one move is then not framed (it cuts into 21
lines, where a framed script of one rule has 8). -/
theorem renderDocument_newlineStem :
    ∃ p c script, parseSource "m e 1 2 3 4" "a\n.dspa" = .ok p ∧ compileProgram p = .ok c ∧
      renderDocument c.document = .ok script ∧ ¬ Framed c script :=
  ⟨_, _, _, eq_ok_of_toBool default (by decide +kernel),
    eq_ok_of_toBool default (by decide +kernel), eq_ok_of_toBool "" (by decide +kernel),
    fun framed => absurd framed.name_unbroken (by decide +kernel)⟩

end Keyframes
