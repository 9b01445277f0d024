import Keyframes.Document.Read
import Keyframes.Proofs.Single
import Keyframes.Proofs.Parsed
import Keyframes.Proofs.Schedule

/-!
# Documents read back what they write

`Document.toJson` writes a document and `Document.ofJson` reads one. Reading the written form
gives the document back whenever the document is `Loadable` (`Document.ofJson_toJson`): the
texts the reader checks are filled, merge values hold single-precision values, as many as their
channel has components, and the tags of a summon are a non-empty sorted set of non-empty texts.

Every document the reader returns is loadable (`Document.loadable_of_ofJson`): it rounds merge
values to single precision, and rounding again changes nothing, and it sorts tags into a set.
Every document baked from a source that reads is loadable too (`compileProgram_loadable`): the
names of timelines and of tagged entities hold a dash, the object name is a name, and reading
keeps block ids and commands filled. `ofJson_toJson_produced` puts the two together.
-/

namespace Keyframes
open Keyframes.Json Keyframes.Binary Keyframes.Source

/-! ## Tag sets -/

theorem mem_insertTag {t u : String} {tags : List String} :
    u ∈ insertTag t tags ↔ u = t ∨ u ∈ tags := by
  induction tags with
  | nil => simp [insertTag]
  | cons v rest ih =>
    unfold insertTag
    split
    · exact List.mem_cons
    · split
      · rename_i same
        subst same
        simp
      · rw [List.mem_cons, ih, List.mem_cons, or_left_comm]

theorem insertTag_sorted (t : String) {tags : List String} (sorted : tags.Pairwise (· < ·)) :
    (insertTag t tags).Pairwise (· < ·) := by
  induction tags with
  | nil => exact List.pairwise_singleton _ _
  | cons u rest ih =>
    rw [List.pairwise_cons] at sorted
    obtain ⟨above, restSorted⟩ := sorted
    unfold insertTag
    split
    · rename_i before
      refine List.Pairwise.cons ?_ (List.Pairwise.cons above restSorted)
      intro x mem
      rcases List.mem_cons.1 mem with rfl | later
      · exact before
      · exact lt_trans before (above x later)
    · split
      · exact List.Pairwise.cons above restSorted
      · rename_i notBefore notSame
        have after : u < t := lt_of_le_of_ne (not_lt.1 notBefore) (Ne.symm notSame)
        refine List.Pairwise.cons ?_ (ih restSorted)
        intro x mem
        rcases mem_insertTag.1 mem with rfl | later
        · exact after
        · exact above x later

theorem tagSet_sorted (tags : List String) : (tagSet tags).Pairwise (· < ·) := by
  induction tags with
  | nil => exact List.Pairwise.nil
  | cons t rest ih => exact insertTag_sorted t ih

theorem mem_tagSet {u : String} {tags : List String} : u ∈ tagSet tags ↔ u ∈ tags := by
  induction tags with
  | nil => rfl
  | cons t rest ih =>
    show u ∈ insertTag t (tagSet rest) ↔ _
    rw [mem_insertTag, ih, List.mem_cons]

theorem insertTag_of_lt {t : String} {tags : List String} (least : ∀ u ∈ tags, t < u) :
    insertTag t tags = t :: tags := by
  cases tags with
  | nil => rfl
  | cons u rest =>
    unfold insertTag
    rw [if_pos (least u List.mem_cons_self)]

theorem tagSet_of_sorted {tags : List String} (sorted : tags.Pairwise (· < ·)) :
    tagSet tags = tags := by
  induction tags with
  | nil => rfl
  | cons t rest ih =>
    rw [List.pairwise_cons] at sorted
    show insertTag t (tagSet rest) = t :: rest
    rw [ih sorted.2, insertTag_of_lt sorted.1]

theorem tagSet_ne_nil {tags : List String} (nonempty : tags ≠ []) : tagSet tags ≠ [] := by
  intro empty
  obtain ⟨t, mem⟩ := List.exists_mem_of_ne_nil tags nonempty
  have kept := mem_tagSet.2 mem
  rw [empty] at kept
  cases kept

/-! ## Fields that read back -/

theorem singleValues_single (channel : Channel) {values : List Float}
    (single : ∀ v ∈ values, IsSingle v) : singleValues channel values = .ok values := by
  unfold singleValues
  rw [if_pos (List.all_eq_true.2 fun v mem => (single v mem).isSingleFinite)]
  exact mapM_eq_ok_self fun v mem => mapError_eq_ok.2 (single v mem).1

theorem single_of_singleValues {channel : Channel} {values rounded : List Float}
    (done : singleValues channel values = .ok rounded) : ∀ y ∈ rounded, IsSingle y := by
  unfold singleValues at done
  split at done
  · rename_i finite
    intro y mem
    obtain ⟨x, kept, found⟩ := exists_of_mapM_eq_ok done y mem
    have rounded := mapError_eq_ok.1 found
    obtain ⟨y', rounded', finite'⟩ := (isSingleFinite_iff x).1 (List.all_eq_true.1 finite x kept)
    rw [rounded] at rounded'
    cases rounded'
    exact isSingle_of_toSingle rounded finite'
  · cases done

theorem merge?_single {target : String} {channel : Channel} {values : List Float} {duration start : Ticks}
    (arity : values.length = channel.arity) (single : ∀ v ∈ values, IsSingle v) :
    Action.merge? target channel values duration start = .ok (.merge target channel values duration start) := by
  unfold Action.merge?
  rw [singleValues_single channel single, ok_bind, if_neg (by omega)]

theorem requireTicks_toJson {fields : List (String × Value)} {key label : String} {default : Nat}
    {t : Ticks} (found : getField? fields key = some t.toJson) :
    requireTicks fields key label default = .ok t := by
  unfold requireTicks
  rw [found]
  cases t with
  | num n =>
    show (if (n : Int) < 0 then _ else _) = _
    rw [if_neg (by omega), Int.toNat_natCast]
  | flag b => rfl

theorem mapM_toFloat_floats (values : List Float) :
    (values.map Value.float).mapM Value.toFloat = .ok values := by
  induction values with
  | nil => rfl
  | cons v rest ih =>
    rw [List.map_cons, List.mapM_cons, ih]
    rfl

theorem requireNumbers_floats {fields : List (String × Value)} {key label : String}
    {values : List Float} (found : getField? fields key = some (.arr (values.map .float)))
    (single : ∀ v ∈ values, IsSingle v) : requireNumbers fields key label = .ok values := by
  have numbers : (values.map Value.float).all isNumberValue = true := by
    simp [isNumberValue]
  have finite : (values.map Value.float).all staysSingleFinite = true := by
    rw [List.all_map, List.all_eq_true]
    exact fun v mem => (single v mem).isSingleFinite
  unfold requireNumbers
  rw [found]
  dsimp only
  rw [numbers, finite]
  exact mapM_toFloat_floats values

theorem filledField_str {fields : List (String × Value)} {key message s : String}
    (found : getField? fields key = some (.str s)) (filled : Text.Filled s) :
    filledField fields key message = .ok s := by
  unfold filledField
  rw [found]
  show (if (Text.trimString s).isEmpty then _ else _) = _
  rw [filled]
  rfl

theorem filled_of_filledField {fields : List (String × Value)} {key message s : String}
    (done : filledField fields key message = .ok s) : Text.Filled s := by
  unfold filledField at done
  split at done
  · split at done
    · cases done
    · rename_i blank
      cases done
      exact Bool.eq_false_iff.2 blank
  · cases done

theorem requireText_filled {fields : List (String × Value)} {key label s : String}
    (found : getField? fields key = some (.str s)) (filled : Text.Filled s) :
    requireText fields key label = .ok s :=
  filledField_str found filled

theorem filled_of_requireText {fields : List (String × Value)} {key label s : String}
    (done : requireText fields key label = .ok s) : Text.Filled s :=
  filled_of_filledField done

theorem Channel.ofName?_name (c : Channel) : Channel.ofName? c.name = some c := by
  cases c <;> rfl

theorem EntityKind.ofName?_name (k : EntityKind) : EntityKind.ofName? k.name = some k := by
  cases k <;> rfl

theorem StateKind.ofName?_name (k : StateKind) : StateKind.ofName? k.name = some k := by
  cases k <;> rfl

theorem namedField_str {α : Type} {lookup : String → Option α} {fields : List (String × Value)}
    {key message s : String} {a : α} (found : getField? fields key = some (.str s))
    (named : lookup s = some a) : namedField lookup fields key message = .ok a := by
  have picked : nameIn lookup (getField? fields key) = some a := by
    rw [found]
    exact named
  unfold namedField
  rw [picked]

theorem tagsOfJson_str {fields : List (String × Value)} {label : String} {tags : List String}
    (found : getField? fields "tags" = some (.arr (tags.map .str))) (nonempty : tags ≠ [])
    (named : ∀ t ∈ tags, t ≠ "") : tagsOfJson fields label = .ok tags := by
  obtain ⟨t, rest, rfl⟩ := List.exists_cons_of_ne_nil nonempty
  unfold tagsOfJson
  rw [found, List.map_cons]
  simp only []
  rw [mapM_map_cons_eq_some fun u mem => by
    simp only [tagOfJson?, Value.text?]
    rw [String.isEmpty_eq_false_iff.2 (named u mem)]
    rfl]

theorem tags_of_tagsOfJson {fields : List (String × Value)} {label : String} {tags : List String}
    (read : tagsOfJson fields label = .ok tags) : tags ≠ [] ∧ ∀ t ∈ tags, t ≠ "" := by
  unfold tagsOfJson at read
  split at read
  · split at read
    · rename_i tagsRead
      cases read
      refine ⟨ne_nil_of_mapM_eq_some tagsRead, fun t mem => ?_⟩
      obtain ⟨v, _, found⟩ := exists_of_mapM_eq_some tagsRead t mem
      unfold tagOfJson? at found
      split at found
      · split at found
        · cases found
        · rename_i blank
          cases found
          exact String.isEmpty_eq_false_iff.1 (Bool.eq_false_iff.2 blank)
      · cases found
    · cases read
  · cases read

theorem anchorOfJson_str {fields : List (String × Value)} {label : String} {anchor : Option String}
    (found : getField? fields "at" = anchor.map .str) (filled : ∀ a ∈ anchor, Text.Filled a) :
    anchorOfJson fields label = .ok anchor := by
  unfold anchorOfJson
  rw [found]
  cases anchor with
  | none => rfl
  | some a =>
    have solid : (Text.trimString a).isEmpty = false := filled a rfl
    simp only [Option.map_some, Value.text?, solid]
    rfl

theorem filled_of_anchorOfJson {fields : List (String × Value)} {label : String}
    {anchor : Option String} (read : anchorOfJson fields label = .ok anchor) :
    ∀ a ∈ anchor, Text.Filled a := by
  unfold anchorOfJson at read
  split at read
  · cases read
    exact nofun
  · cases read
    exact nofun
  · split at read
    · split at read
      · cases read
      · rename_i blank
        cases read
        intro a same
        cases same
        exact Bool.eq_false_iff.2 blank
    · cases read

/-! ## Actions -/

/-- What reading asks of an action beyond its shape: the texts it checks are filled, merge values
hold single-precision values, as many as the channel has components, and the tags of a summon
are a non-empty sorted set of non-empty texts. -/
def Action.Loadable : Action → Prop
  | .merge target channel values _ _ =>
    Text.Filled target ∧ values.length = channel.arity ∧ ∀ v ∈ values, IsSingle v
  | .summon _ tags anchor =>
    tags ≠ [] ∧ tags.Pairwise (· < ·) ∧ (∀ t ∈ tags, t ≠ "") ∧ ∀ a ∈ anchor, Text.Filled a
  | .setState target _ _ => Text.Filled target
  | .setBlock _ _ _ blockId => Text.Filled blockId
  | .raw command => Text.Filled command

theorem Action.ofJson_toJson {a : Action} {fields : List (String × Value)} (label : String)
    (written : a.toJson = .obj fields) (loadable : a.Loadable) : Action.ofJson fields label = .ok a := by
  -- every lookup in the written fields computes; `simp only []` then takes the branch of the
  -- reader that the looked-up string selects
  unfold Action.ofJson
  cases a with
  | merge target channel values duration start =>
    obtain ⟨filled, arity, single⟩ := loadable
    obtain rfl := Value.obj.inj written
    rw [show getField? _ "type" = some (.str "merge_transform") from rfl]
    dsimp only
    rw [requireText_filled rfl filled, ok_bind, namedField_str rfl (Channel.ofName?_name channel),
      ok_bind, requireNumbers_floats rfl single, ok_bind, requireTicks_toJson rfl, ok_bind,
      requireTicks_toJson rfl, ok_bind, merge?_single arity single]
    rfl
  | summon kind tags anchor =>
    obtain ⟨nonempty, sorted, named, filled⟩ := loadable
    obtain rfl := Value.obj.inj written
    rw [show getField? _ "type" = some (.str "summon") by cases anchor <;> rfl]
    simp only []
    rw [namedField_str (by cases anchor <;> rfl) (EntityKind.ofName?_name kind), ok_bind,
      tagsOfJson_str (by cases anchor <;> rfl) nonempty named, ok_bind,
      anchorOfJson_str (by cases anchor <;> rfl) filled, ok_bind, tagSet_of_sorted sorted]
    rfl
  | setState target kind payload =>
    obtain rfl := Value.obj.inj written
    rw [show getField? _ "type" = some (.str "set_entity_state") from rfl]
    simp only []
    rw [requireText_filled rfl loadable, ok_bind, namedField_str rfl (StateKind.ofName?_name kind)]
    rfl
  | setBlock x y z blockId =>
    obtain rfl := Value.obj.inj written
    rw [show getField? _ "type" = some (.str "set_block") from rfl]
    simp only []
    rw [show positionOfJson _ label = .ok (x, y, z) from rfl, ok_bind, requireText_filled rfl loadable]
    rfl
  | raw command =>
    obtain rfl := Value.obj.inj written
    rw [show getField? _ "type" = some (.str "raw") from rfl]
    simp only []
    rw [requireText_filled rfl loadable]
    rfl

theorem Action.loadable_of_ofJson {fields : List (String × Value)} {label : String} {a : Action}
    (read : Action.ofJson fields label = .ok a) : a.Loadable := by
  unfold Action.ofJson at read
  split at read
  · obtain ⟨target, targetRead, read⟩ := bind_eq_ok.1 read
    obtain ⟨channel, -, read⟩ := bind_eq_ok.1 read
    obtain ⟨values, -, read⟩ := bind_eq_ok.1 read
    obtain ⟨duration, -, read⟩ := bind_eq_ok.1 read
    obtain ⟨start, -, read⟩ := bind_eq_ok.1 read
    obtain ⟨rounded, singled, arity, rfl⟩ := merge?_values (mapError_eq_ok.1 read)
    exact ⟨filled_of_requireText targetRead, arity, single_of_singleValues singled⟩
  · obtain ⟨kind, -, read⟩ := bind_eq_ok.1 read
    obtain ⟨tags, tagsRead, read⟩ := bind_eq_ok.1 read
    obtain ⟨anchor, anchorRead, read⟩ := bind_eq_ok.1 read
    cases read
    obtain ⟨nonempty, named⟩ := tags_of_tagsOfJson tagsRead
    exact ⟨tagSet_ne_nil nonempty, tagSet_sorted tags, fun t mem => named t (mem_tagSet.1 mem),
      filled_of_anchorOfJson anchorRead⟩
  · obtain ⟨target, targetRead, read⟩ := bind_eq_ok.1 read
    obtain ⟨kind, -, read⟩ := bind_eq_ok.1 read
    obtain ⟨payload, -, read⟩ := bind_eq_ok.1 read
    cases read
    exact filled_of_requireText targetRead
  · obtain ⟨_, -, read⟩ := bind_eq_ok.1 read
    obtain ⟨blockId, blockRead, read⟩ := bind_eq_ok.1 read
    cases read
    exact filled_of_requireText blockRead
  · obtain ⟨command, commandRead, read⟩ := bind_eq_ok.1 read
    cases read
    exact filled_of_requireText commandRead
  · cases read

/-! ## Documents -/

structure Document.Loadable (d : Document) : Prop where
  name : Text.Filled d.name
  everyTick : ∀ c ∈ d.everyTick, Text.Filled c
  rules : ∀ r ∈ d.table.rules, r.action.Loadable

theorem Action.toJson_obj (a : Action) : ∃ fields, a.toJson = .obj fields := by
  cases a <;> exact ⟨_, rfl⟩

theorem offsetOfJson_nat {fields : List (String × Value)} {label : String} {n : Nat}
    (found : getField? fields "offset" = some (.int n)) : offsetOfJson fields label = .ok n := by
  unfold offsetOfJson
  rw [found]
  show (if (n : Int) < 0 then _ else _) = _
  rw [if_neg (by omega), Int.toNat_natCast]

theorem ruleOfJson_toJson (label : String) {r : Rule} (loadable : r.action.Loadable) :
    ruleOfJson label r.toJson = .ok r := by
  obtain ⟨fields, written⟩ := r.action.toJson_obj
  unfold ruleOfJson
  simp only [Rule.toJson, Value.fields?]
  rw [offsetOfJson_nat rfl, ok_bind, show getField? _ "action" = some r.action.toJson from rfl,
    Option.getD_some, written]
  simp only []
  rw [Action.ofJson_toJson _ written loadable]
  rfl

theorem rulesOfJson_toJson (i : Nat) {rules : List Rule} (loadable : ∀ r ∈ rules, r.action.Loadable) :
    rulesOfJson i (rules.map Rule.toJson) = .ok rules := by
  induction rules generalizing i with
  | nil => rfl
  | cons r rest ih =>
    rw [List.map_cons]
    unfold rulesOfJson
    rw [ruleOfJson_toJson _ (loadable r List.mem_cons_self), ok_bind,
      ih (i + 1) fun r' mem => loadable r' (List.mem_cons_of_mem r mem)]
    rfl

theorem allCommands_str {commands : List String} (filled : ∀ c ∈ commands, Text.Filled c) :
    allCommands (commands.map .str) = some commands := by
  induction commands with
  | nil => rfl
  | cons c rest ih =>
    have solid : (Text.trimString c).isEmpty = false := filled c List.mem_cons_self
    rw [List.map_cons]
    unfold allCommands
    simp only [Value.text?, solid, ih fun c' mem => filled c' (List.mem_cons_of_mem c mem)]
    rfl

theorem toJson_timeline (d : Document) : d.toJson.get? "timeline" = some (.str d.name) :=
  rfl

theorem toJson_endOffset (d : Document) :
    d.toJson.get? "end_offset" = d.table.endOffset.map Ticks.toJson := by
  unfold Document.toJson
  cases d.table.endOffset <;> cases d.everyTick.isEmpty <;> rfl

theorem toJson_everyTick (d : Document) :
    d.toJson.get? "every_tick" =
      if d.everyTick.isEmpty then none else some (.arr (d.everyTick.map .str)) := by
  unfold Document.toJson
  cases d.table.endOffset <;> cases d.everyTick.isEmpty <;> rfl

theorem nameOfJson_str {fields : List (String × Value)} {name : String}
    (found : getField? fields "timeline" = some (.str name)) (filled : Text.Filled name) :
    nameOfJson fields = .ok name :=
  filledField_str found filled

theorem endOffsetOfJson_toJson {fields : List (String × Value)} {endOffset : Option Ticks}
    (found : getField? fields "end_offset" = endOffset.map Ticks.toJson) :
    endOffsetOfJson fields = .ok endOffset := by
  unfold endOffsetOfJson
  rw [found]
  rcases endOffset with _ | ⟨n | b⟩
  · rfl
  · show (if (n : Int) < 0 then _ else _) = _
    rw [if_neg (by omega), Int.toNat_natCast]
  · rfl

theorem everyTickOfJson_str {fields : List (String × Value)} {commands : List String}
    (found : getField? fields "every_tick" =
      if commands.isEmpty then none else some (.arr (commands.map .str)))
    (filled : ∀ c ∈ commands, Text.Filled c) :
    everyTickOfJson fields = .ok commands := by
  have written : (getField? fields "every_tick").getD (.arr []) = .arr (commands.map .str) := by
    rw [found]
    cases commands <;> rfl
  unfold everyTickOfJson
  rw [written]
  simp only [allCommands_str filled]

theorem Document.ofJson_toJson (d : Document) (loadable : d.Loadable) :
    Document.ofJson d.toJson = .ok d := by
  obtain ⟨fields, written⟩ : ∃ fields, d.toJson = .obj fields := ⟨_, rfl⟩
  have lookup : ∀ key, getField? fields key = d.toJson.get? key := fun key => by
    rw [written]
    rfl
  unfold Document.ofJson
  rw [written]
  simp only [Value.fields?]
  rw [nameOfJson_str (by rw [lookup, toJson_timeline]) loadable.name, ok_bind,
    endOffsetOfJson_toJson (by rw [lookup, toJson_endOffset]), ok_bind,
    everyTickOfJson_str (by rw [lookup, toJson_everyTick]) loadable.everyTick, ok_bind,
    lookup, toJson_rules, Option.getD_some]
  simp only []
  rw [rulesOfJson_toJson 0 loadable.rules, ok_bind]
  rfl

theorem filled_of_nameOfJson {fields : List (String × Value)} {name : String}
    (read : nameOfJson fields = .ok name) : Text.Filled name :=
  filled_of_filledField read

theorem filled_of_allCommands :
    ∀ {items : List Value} {commands : List String}, allCommands items = some commands →
      ∀ c ∈ commands, Text.Filled c
  | [], commands, found => by
    cases found
    intro c mem
    cases mem
  | v :: rest, commands, found => by
    unfold allCommands at found
    split at found
    · split at found
      · cases found
      · rename_i blank
        rw [Option.map_eq_some_iff] at found
        obtain ⟨later, laterRead, rfl⟩ := found
        intro c mem
        rcases List.mem_cons.1 mem with rfl | mem
        · exact Bool.eq_false_iff.2 blank
        · exact filled_of_allCommands laterRead c mem
    · cases found

theorem filled_of_everyTickOfJson {fields : List (String × Value)} {commands : List String}
    (read : everyTickOfJson fields = .ok commands) : ∀ c ∈ commands, Text.Filled c := by
  unfold everyTickOfJson at read
  split at read
  · split at read
    · rename_i found
      cases read
      exact filled_of_allCommands found
    · cases read
  · cases read

theorem loadable_of_ruleOfJson {label : String} {item : Value} {r : Rule}
    (read : ruleOfJson label item = .ok r) : r.action.Loadable := by
  unfold ruleOfJson at read
  split at read
  · obtain ⟨offset, -, read⟩ := bind_eq_ok.1 read
    split at read
    · obtain ⟨action, actionRead, read⟩ := bind_eq_ok.1 read
      cases read
      exact Action.loadable_of_ofJson actionRead
    · cases read
  · cases read

theorem loadable_of_rulesOfJson :
    ∀ {i : Nat} {items : List Value} {rules : List Rule}, rulesOfJson i items = .ok rules →
      ∀ r ∈ rules, r.action.Loadable
  | i, [], rules, done => by
    cases done
    intro r mem
    cases mem
  | i, item :: rest, rules, done => by
    unfold rulesOfJson at done
    obtain ⟨first, firstRead, done⟩ := bind_eq_ok.1 done
    obtain ⟨later, laterRead, done⟩ := bind_eq_ok.1 done
    cases done
    intro r mem
    rcases List.mem_cons.1 mem with rfl | mem
    · exact loadable_of_ruleOfJson firstRead
    · exact loadable_of_rulesOfJson laterRead r mem

theorem Document.loadable_of_ofJson {raw : Value} {d : Document}
    (read : Document.ofJson raw = .ok d) : d.Loadable := by
  unfold Document.ofJson at read
  split at read
  · rw [bind_eq_ok] at read
    obtain ⟨name, nameRead, read⟩ := read
    rw [bind_eq_ok] at read
    obtain ⟨endOffset, _, read⟩ := read
    rw [bind_eq_ok] at read
    obtain ⟨everyTick, everyTickRead, read⟩ := read
    split at read
    · rw [bind_eq_ok] at read
      obtain ⟨rules, rulesRead, read⟩ := read
      cases read
      exact ⟨filled_of_nameOfJson nameRead, filled_of_everyTickOfJson everyTickRead,
        loadable_of_rulesOfJson rulesRead⟩
    · cases read
  · cases read

/-! ## Baked documents -/

structure Baker.Loadable (b : Baker) : Prop where
  named : b.objectName ≠ ""
  rules : ∀ r ∈ b.rules, r.action.Loadable
  everyTick : ∀ c ∈ b.everyTick, Text.Filled c

namespace Baker

theorem Loadable.add {b : Baker} {a : Action} (loadable : b.Loadable) (fresh : a.Loadable) :
    (b.add a).Loadable where
  named := loadable.named
  rules r mem := by
    rcases List.mem_cons.1 mem with rfl | mem
    · exact fresh
    · exact loadable.rules r mem
  everyTick := loadable.everyTick

theorem Loadable.track {b : Baker} {e : String} {t : Tracked} (loadable : b.Loadable) :
    (b.track e t).Loadable where
  named := by rw [track_objectName]; exact loadable.named
  rules := by rw [track_rules]; exact loadable.rules
  everyTick := by rw [track_everyTick]; exact loadable.everyTick

theorem merge_loadable {b b' : Baker} {e : String} {channel : Channel} {values : List Float}
    {d : Nat} (loadable : b.Loadable) (merged : b.merge e channel values d = .ok b') :
    b'.Loadable := by
  unfold merge at merged
  split at merged
  · rename_i a made
    cases merged
    obtain ⟨rounded, singled, arity, rfl⟩ := merge?_values made
    exact loadable.add ⟨Text.filled_dash _ _, arity, single_of_singleValues singled⟩
  · cases merged

theorem summon_loadable {o source e : String} (kind : EntityKind) (named : o ≠ "") :
    (Action.summon kind (tagSet [o, entityTag o e]) (some (entityTag o source))).Loadable := by
  refine ⟨tagSet_ne_nil (List.cons_ne_nil _ _), tagSet_sorted _, fun t mem => ?_, ?_⟩
  · rcases List.mem_cons.1 (mem_tagSet.1 mem) with rfl | mem
    · exact named
    · rw [List.mem_singleton] at mem
      rw [mem]
      exact (Text.filled_dash o e).ne_empty
  · intro a same
    cases same
    exact Text.filled_dash o source

theorem bake_loadable {b b' : Baker} {s : Statement} (loadable : b.Loadable) (sound : s.Sound)
    (baked : b.bake s = .ok b') : b'.Loadable := by
  cases s with
  | objectName o a =>
    cases baked
    exact loadable
  | wait t =>
    cases baked
    exact ⟨loadable.named, loadable.rules, loadable.everyTick⟩
  | translate e c d => exact merge_loadable loadable.track baked
  | scale e c d => exact merge_loadable loadable.track baked
  | rotate e axis angle d =>
    obtain ⟨_, -, composed⟩ := bind_eq_ok.1 baked
    obtain ⟨_, -, merged⟩ := bind_eq_ok.1 composed
    exact merge_loadable loadable.track merged
  | spawn source kind e =>
    cases baked
    exact loadable.track.add (summon_loadable kind loadable.named)
  | item e i =>
    cases baked
    exact loadable.add (Text.filled_dash _ _)
  | block e blockId props =>
    cases baked
    exact loadable.add (Text.filled_dash _ _)
  | text e t =>
    cases baked
    exact loadable.add (Text.filled_dash _ _)
  | teleport e o =>
    cases baked
    exact loadable.add (Text.filled_dash _ _)
  | placeBlock x y z blockId =>
    cases baked
    exact loadable.add sound
  | raw command delayed =>
    cases delayed with
    | true =>
      cases baked
      exact loadable.add sound
    | false =>
      cases baked
      refine ⟨loadable.named, loadable.rules, fun c mem => ?_⟩
      rcases List.mem_cons.1 mem with rfl | mem
      · exact sound
      · exact loadable.everyTick c mem

end Baker

theorem bakeAll_loadable :
    ∀ {b b' : Baker} {ss : List Statement}, b.Loadable → (∀ s ∈ ss, s.Sound) →
      bakeAll b ss = .ok b' → b'.Loadable
  | b, b', [], loadable, _, baked => by
    cases baked
    exact loadable
  | b, b', s :: rest, loadable, sound, baked => by
    rw [bakeAll, bind_eq_ok] at baked
    obtain ⟨b₁, first, later⟩ := baked
    exact bakeAll_loadable (b.bake_loadable loadable (sound s List.mem_cons_self) first)
      (fun s' mem => sound s' (List.mem_cons_of_mem s mem)) later

theorem programNames_named {P : Program} {o a : String} (sound : ∀ s ∈ P.statements, s.Sound)
    (named : programNames P = .ok (o, a)) : o ≠ "" := by
  unfold programNames at named
  split at named
  · rename_i names found
    cases named
    obtain ⟨s, mem, picked⟩ := List.exists_of_findSome?_eq_some found
    cases s with
    | objectName o' a' =>
      cases picked
      exact isName_ne_empty (sound _ mem)
    | _ => cases picked
  · dsimp only at named
    split at named
    · rename_i stemmed
      obtain ⟨same, -⟩ := Prod.mk.inj (Except.ok.inj named)
      rw [← same]
      exact isName_ne_empty stemmed
    · cases named

theorem compileProgram_loadable {P : Program} {c : Compiled} (sound : ∀ s ∈ P.statements, s.Sound)
    (compiled : compileProgram P = .ok c) : c.document.Loadable := by
  unfold compileProgram at compiled
  obtain ⟨⟨o, a⟩, named, compiled⟩ := bind_eq_ok.1 compiled
  obtain ⟨b, baked, compiled⟩ := bind_eq_ok.1 compiled
  cases compiled
  have start : Baker.Loadable { objectName := o, path := P.path } :=
    ⟨programNames_named sound named, fun _ mem => (nomatch mem), fun _ mem => (nomatch mem)⟩
  have loadable := bakeAll_loadable start sound baked
  exact ⟨Text.filled_dash _ _, fun c mem => loadable.everyTick c (List.mem_reverse.1 mem),
    fun r mem => loadable.rules r (List.mem_reverse.1 mem)⟩

end Keyframes
