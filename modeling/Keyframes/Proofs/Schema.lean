import Keyframes.Proofs.Reload

/-!
# The rule-table schema

`TableSchema` says what a rule-table document must be, field by field, with no order among
the checks: an object with a filled `timeline`; an `end_offset` that is absent, null or a tick
count; `every_tick` absent or an array of filled strings; and `rules`, an array of rules. A rule
is an object with an offset (an integer, not a truth value, not negative) and an action object,
which follows `ActionSchema`: one rule of the schema for each action type.

The reader takes exactly the documents of the schema, and every value it refuses is refused as
a bad input (`ofJson_accepts_schema`). The two directions are proved apart for every part of
the document, the reader's success giving the schema (`*_schema`) and the schema giving success
(`*_of_schema`), and `OnlyBadInput` collects the refusals.
-/

namespace Keyframes
open Keyframes.Json Keyframes.Binary

/-! ## The schema -/

namespace Schema

/-- A field that is there and satisfies `P`. -/
def Has (P : Value → Prop) (fields : List (String × Value)) (key : String) : Prop :=
  ∃ v, getField? fields key = some v ∧ P v

/-- A field that is absent or satisfies `P`. -/
def MayHave (P : Value → Prop) (fields : List (String × Value)) (key : String) : Prop :=
  ∀ v, getField? fields key = some v → P v

/-- A string with a character that is not blank. -/
def FilledText (v : Value) : Prop :=
  ∃ s, v.text? = some s ∧ Text.Filled s

/-- A string that is not empty. -/
def NonEmptyText (v : Value) : Prop :=
  ∃ s, v.text? = some s ∧ s ≠ ""

/-- A tick count: an integer that is not negative, or a truth value. -/
def TickCount : Value → Prop
  | .int n => 0 ≤ n
  | .bool _ => True
  | _ => False

/-- A number, not a truth value, that stays finite once rounded to single precision; an
integer is first rounded to the nearest double, and one beyond the double range is not
finite. -/
def SingleNumber : Value → Prop
  | .int n => ∃ x, ofInt? n = .ok x ∧ isSingleFinite x = true
  | .float x => isSingleFinite x = true
  | _ => False

/-- An array whose items all satisfy `P`. -/
def ArrayOf (P : Value → Prop) : Value → Prop
  | .arr items => ∀ v ∈ items, P v
  | _ => False

/-- An object whose fields satisfy `P`. -/
def ObjectOf (P : List (String × Value) → Prop) (v : Value) : Prop :=
  ∃ fields, v.fields? = some fields ∧ P fields

/-- The action objects a rule may hold, one rule for each action type. -/
inductive ActionSchema (fields : List (String × Value)) : Prop
  /-- A filled target, a channel by its name, as many numbers as the channel has components,
  each finite in single precision, and tick counts for the two durations when they are
  given. -/
  | merge (channel : Channel) (values : List Value)
      (type : getField? fields "type" = some (.str "merge_transform"))
      (target : Has FilledText fields "target")
      (named : getField? fields "channel" = some (.str channel.name))
      (numbers : getField? fields "value" = some (.arr values))
      (single : ∀ v ∈ values, SingleNumber v)
      (arity : values.length = channel.arity)
      (duration : MayHave TickCount fields "interpolation_duration")
      (start : MayHave TickCount fields "start_interpolation")
  /-- An entity kind by its name, a non-empty array of non-empty tags, and an anchor that is
  absent, null or filled. -/
  | summon (kind : EntityKind) (tags : List Value)
      (type : getField? fields "type" = some (.str "summon"))
      (named : getField? fields "kind" = some (.str kind.name))
      (tagged : getField? fields "tags" = some (.arr tags))
      (nonempty : tags ≠ [])
      (texts : ∀ t ∈ tags, NonEmptyText t)
      (anchor : MayHave (fun v => v = .null ∨ FilledText v) fields "at")
  /-- A filled target, a state kind by its name, and a payload that is absent or an
  object. -/
  | setState (kind : StateKind)
      (type : getField? fields "type" = some (.str "set_entity_state"))
      (target : Has FilledText fields "target")
      (named : getField? fields "state" = some (.str kind.name))
      (payload : MayHave (ObjectOf fun _ => True) fields "payload")
  /-- Exactly three integers, no truth values, and a filled block id. -/
  | setBlock (x y z : Int)
      (type : getField? fields "type" = some (.str "set_block"))
      (position : getField? fields "position" = some (.arr [.int x, .int y, .int z]))
      (blockId : Has FilledText fields "block_id")
  /-- A filled command. -/
  | raw (type : getField? fields "type" = some (.str "raw"))
      (command : Has FilledText fields "command")

/-- A rule: an object with an offset that is an integer, not a truth value, and not negative,
and an action object of the schema. -/
def RuleSchema : Value → Prop :=
  ObjectOf fun fields =>
    (∃ n : Int, getField? fields "offset" = some (.int n) ∧ 0 ≤ n) ∧
      Has (ObjectOf ActionSchema) fields "action"

/-- A rule-table document, by the fields of its object. -/
structure TableSchema (fields : List (String × Value)) : Prop where
  timeline : Has FilledText fields "timeline"
  endOffset : MayHave (fun v => v = .null ∨ TickCount v) fields "end_offset"
  everyTick : MayHave (ArrayOf FilledText) fields "every_tick"
  rules : Has (ArrayOf RuleSchema) fields "rules"

end Schema

open Schema

/-! ## Refusals -/

/-- Every failure of a computation is a bad input. -/
def OnlyBadInput {α : Type} (x : Except Fault α) : Prop :=
  ∀ f, x = .error f → f.isBadInput = true

theorem OnlyBadInput.ok {α : Type} (a : α) : OnlyBadInput (.ok a : Except Fault α) :=
  fun _ failed => nomatch failed

theorem OnlyBadInput.refuse {α : Type} (message : String) : OnlyBadInput (refuse message : Except Fault α) := by
  intro f failed
  cases failed
  rfl

theorem OnlyBadInput.bind {α β : Type} {x : Except Fault α} {g : α → Except Fault β}
    (first : OnlyBadInput x) (next : ∀ a, x = .ok a → OnlyBadInput (g a)) :
    OnlyBadInput (x >>= g) := by
  intro f failed
  cases hx : x with
  | error e =>
    rw [hx] at failed
    cases failed
    exact first _ hx
  | ok a =>
    rw [hx] at failed
    exact next a hx f failed

theorem OnlyBadInput.mapError {α : Type} (x : Except Fault α) (message : Fault → String) :
    OnlyBadInput (x.mapError fun e => .badInput (message e)) := by
  intro f failed
  cases x with
  | ok a => cases failed
  | error e =>
    cases failed
    rfl

/-! ## Texts and tick counts -/

theorem filledField_schema {fields : List (String × Value)} {key message s : String}
    (done : filledField fields key message = .ok s) : Has FilledText fields key := by
  unfold filledField at done
  split at done
  · rename_i found
    split at done
    · cases done
    · rename_i solid
      cases done
      obtain ⟨v, lookup, text⟩ := Option.bind_eq_some_iff.1 found
      exact ⟨v, lookup, _, text, Bool.eq_false_iff.2 solid⟩
  · cases done

theorem filledField_of_schema {fields : List (String × Value)} {key : String} (message : String)
    (has : Has FilledText fields key) : ∃ s, filledField fields key message = .ok s := by
  obtain ⟨v, lookup, s, text, filled⟩ := has
  refine ⟨s, ?_⟩
  unfold filledField
  rw [lookup, Option.bind_some, text]
  show (if (Text.trimString s).isEmpty then _ else _) = _
  rw [filled]
  rfl

theorem filledField_onlyBadInput (fields : List (String × Value)) (key message : String) :
    OnlyBadInput (filledField fields key message) := by
  unfold filledField
  split
  · split
    · exact OnlyBadInput.refuse _
    · exact OnlyBadInput.ok _
  · exact OnlyBadInput.refuse _

theorem requireTicks_schema {fields : List (String × Value)} {key label : String} {default : Nat}
    {t : Ticks} (done : requireTicks fields key label default = .ok t) :
    MayHave TickCount fields key := by
  intro v found
  unfold requireTicks at done
  rw [found, Option.getD_some] at done
  cases v with
  | int n =>
    show 0 ≤ n
    by_contra negative
    dsimp only at done
    rw [if_pos (by omega)] at done
    cases done
  | bool b => trivial
  | _ => cases done

theorem requireTicks_of_schema {fields : List (String × Value)} {key : String} (label : String)
    (default : Nat) (ticks : MayHave TickCount fields key) :
    ∃ t, requireTicks fields key label default = .ok t := by
  unfold requireTicks
  cases found : getField? fields key with
  | none =>
    rw [Option.getD_none]
    exact ⟨_, if_neg (by omega)⟩
  | some v =>
    have count := ticks v found
    rw [Option.getD_some]
    cases v with
    | int n => exact ⟨_, if_neg (by simp only [TickCount] at count; omega)⟩
    | bool b => exact ⟨_, rfl⟩
    | _ => cases count

theorem requireTicks_onlyBadInput (fields : List (String × Value)) (key label : String)
    (default : Nat) : OnlyBadInput (requireTicks fields key label default) := by
  unfold requireTicks
  split
  · split
    · exact OnlyBadInput.refuse _
    · exact OnlyBadInput.ok _
  · exact OnlyBadInput.ok _
  · exact OnlyBadInput.refuse _

/-! ## Numbers -/

theorem singleNumber_iff (v : Value) :
    SingleNumber v ↔ isNumberValue v = true ∧ staysSingleFinite v = true := by
  cases v with
  | int n =>
    simp only [SingleNumber, isNumberValue, true_and, staysSingleFinite, Value.isSingleFinite,
      Value.toFloat]
    cases ofInt? n with
    | ok x => simp
    | error e => cases e <;> simp
  | float x => simp [SingleNumber, isNumberValue, staysSingleFinite, Value.isSingleFinite, Value.toFloat]
  | _ => simp [SingleNumber, isNumberValue]

theorem toFloat_of_singleNumber {v : Value} (single : SingleNumber v) :
    ∃ x, v.toFloat = .ok x ∧ isSingleFinite x = true := by
  cases v with
  | int n => exact single
  | float x => exact ⟨x, rfl, single⟩
  | _ => cases single

theorem requireNumbers_schema {fields : List (String × Value)} {key label : String}
    {values : List Float} (done : requireNumbers fields key label = .ok values) :
    ∃ items, getField? fields key = some (.arr items) ∧ (∀ v ∈ items, SingleNumber v) ∧
      values.length = items.length ∧ ∀ x ∈ values, isSingleFinite x = true := by
  unfold requireNumbers at done
  split at done
  · rename_i items found
    split at done
    · cases done
    · rename_i numbers
      split at done
      · cases done
      · rename_i finite
        have single : ∀ v ∈ items, SingleNumber v := fun v mem =>
          (singleNumber_iff v).2 ⟨List.all_eq_true.1 (by simpa using numbers) v mem,
            List.all_eq_true.1 (by simpa using finite) v mem⟩
        obtain ⟨values', read, length, finite'⟩ :=
          exists_mapM_eq_ok fun v mem => toFloat_of_singleNumber (single v mem)
        rw [read] at done
        cases done
        exact ⟨items, found, single, length, finite'⟩
  · cases done

theorem requireNumbers_of_schema {fields : List (String × Value)} {key : String} (label : String)
    {items : List Value} (found : getField? fields key = some (.arr items))
    (single : ∀ v ∈ items, SingleNumber v) :
    ∃ values, requireNumbers fields key label = .ok values ∧ values.length = items.length ∧
      ∀ x ∈ values, isSingleFinite x = true := by
  have numbers : items.all isNumberValue = true :=
    List.all_eq_true.2 fun v mem => ((singleNumber_iff v).1 (single v mem)).1
  have finite : items.all staysSingleFinite = true :=
    List.all_eq_true.2 fun v mem => ((singleNumber_iff v).1 (single v mem)).2
  obtain ⟨values, read, length, finite'⟩ :=
    exists_mapM_eq_ok fun v mem => toFloat_of_singleNumber (single v mem)
  refine ⟨values, ?_, length, finite'⟩
  unfold requireNumbers
  rw [found]
  dsimp only
  rw [numbers, finite]
  exact read

theorem requireNumbers_onlyBadInput (fields : List (String × Value)) (key label : String) :
    OnlyBadInput (requireNumbers fields key label) := by
  unfold requireNumbers
  split
  · split
    · exact OnlyBadInput.refuse _
    · split
      · exact OnlyBadInput.refuse _
      · -- past both checks every item reads as a double
        rename_i items _ numbers finite
        have single : ∀ v ∈ items, SingleNumber v := fun v mem =>
          (singleNumber_iff v).2 ⟨List.all_eq_true.1 (by simpa using numbers) v mem,
            List.all_eq_true.1 (by simpa using finite) v mem⟩
        obtain ⟨values, read, -⟩ :=
          exists_mapM_eq_ok fun v mem => toFloat_of_singleNumber (single v mem)
        rw [read]
        exact OnlyBadInput.ok _
  · exact OnlyBadInput.refuse _

theorem merge?_ok_iff {target : String} {channel : Channel} {values : List Float}
    {duration start : Ticks} :
    (∃ a, Action.merge? target channel values duration start = .ok a) ↔
      (∀ x ∈ values, isSingleFinite x = true) ∧ values.length = channel.arity := by
  constructor
  · rintro ⟨a, made⟩
    obtain ⟨rounded, singled, arity, -⟩ := merge?_values made
    unfold singleValues at singled
    split at singled
    · rename_i finite
      exact ⟨List.all_eq_true.1 finite, (length_of_mapM_eq_ok singled).symm.trans arity⟩
    · cases singled
  · rintro ⟨finite, arity⟩
    obtain ⟨rounded, done, length, -⟩ := exists_mapM_eq_ok (P := fun _ => True)
      (f := fun v => (toSingle v).mapError fun _ =>
        Fault.refused (channel.name ++ " components must be finite float32 values"))
      fun x mem => by
        obtain ⟨y, rounded, -⟩ := (isSingleFinite_iff x).1 (finite x mem)
        exact ⟨y, mapError_eq_ok.2 rounded, trivial⟩
    refine ⟨.merge target channel rounded duration start, ?_⟩
    unfold Action.merge? singleValues
    rw [if_pos (List.all_eq_true.2 finite), done, ok_bind, if_neg (by omega)]

/-! ## Names, tags, anchors, payloads and positions -/

theorem name_of_find? {α : Type} {all : List α} {name : α → String} {s : String} {a : α}
    (found : all.find? (fun b => name b == s) = some a) : s = name a := by
  have matched := List.find?_some found
  exact (eq_of_beq matched).symm

theorem Channel.name_of_ofName? {s : String} {c : Channel} (found : Channel.ofName? s = some c) :
    s = c.name :=
  name_of_find? found

theorem EntityKind.name_of_ofName? {s : String} {k : EntityKind}
    (found : EntityKind.ofName? s = some k) : s = k.name :=
  name_of_find? found

theorem StateKind.name_of_ofName? {s : String} {k : StateKind}
    (found : StateKind.ofName? s = some k) : s = k.name :=
  name_of_find? found

theorem namedField_schema {α : Type} {lookup : String → Option α} {name : α → String}
    (inverse : ∀ {s a}, lookup s = some a → s = name a) {fields : List (String × Value)}
    {key message : String} {a : α} (read : namedField lookup fields key message = .ok a) :
    getField? fields key = some (.str (name a)) := by
  unfold namedField at read
  split at read
  · rename_i found
    cases read
    unfold nameIn at found
    split at found
    · rename_i s present
      rw [present, inverse found]
    · cases found
  · cases read

theorem namedField_onlyBadInput {α : Type} (lookup : String → Option α)
    (fields : List (String × Value)) (key message : String) :
    OnlyBadInput (namedField lookup fields key message) := by
  unfold namedField
  split
  · exact OnlyBadInput.ok _
  · exact OnlyBadInput.refuse _

theorem tagOfJson?_isSome_iff (t : Value) : (tagOfJson? t).isSome ↔ NonEmptyText t := by
  unfold tagOfJson? NonEmptyText
  cases t.text? with
  | none => simp
  | some s =>
    cases empty : s.isEmpty with
    | true => simp [String.isEmpty_iff.1 empty]
    | false => simp [String.isEmpty_eq_false_iff.1 empty]

theorem tagsOfJson_schema {fields : List (String × Value)} {label : String} {tags : List String}
    (read : tagsOfJson fields label = .ok tags) :
    ∃ items, getField? fields "tags" = some (.arr items) ∧ items ≠ [] ∧
      ∀ t ∈ items, NonEmptyText t := by
  unfold tagsOfJson at read
  split at read
  · rename_i found
    split at read
    · rename_i tagsRead
      refine ⟨_, found, List.cons_ne_nil _ _, fun t mem => (tagOfJson?_isSome_iff t).1 ?_⟩
      exact (mapM_isSome_iff).1 (by rw [tagsRead]; rfl) t mem
    · cases read
  · cases read

theorem tagsOfJson_of_schema {fields : List (String × Value)} (label : String) {items : List Value}
    (found : getField? fields "tags" = some (.arr items)) (nonempty : items ≠ [])
    (texts : ∀ t ∈ items, NonEmptyText t) : ∃ tags, tagsOfJson fields label = .ok tags := by
  obtain ⟨t, rest, rfl⟩ := List.exists_cons_of_ne_nil nonempty
  obtain ⟨tags, read⟩ := Option.isSome_iff_exists.1
    ((mapM_isSome_iff (l := t :: rest)).2 fun u mem => (tagOfJson?_isSome_iff u).2 (texts u mem))
  refine ⟨tags, ?_⟩
  unfold tagsOfJson
  rw [found]
  simp only []
  rw [read]

theorem tagsOfJson_onlyBadInput (fields : List (String × Value)) (label : String) :
    OnlyBadInput (tagsOfJson fields label) := by
  unfold tagsOfJson
  split
  · split
    · exact OnlyBadInput.ok _
    · exact OnlyBadInput.refuse _
  · exact OnlyBadInput.refuse _

theorem anchorOfJson_schema {fields : List (String × Value)} {label : String}
    {anchor : Option String} (read : anchorOfJson fields label = .ok anchor) :
    MayHave (fun v => v = .null ∨ FilledText v) fields "at" := by
  intro v found
  unfold anchorOfJson at read
  rw [found] at read
  cases v with
  | null => exact .inl rfl
  | _ =>
    refine .inr ?_
    simp only [] at read
    split at read
    · rename_i s text
      split at read
      · cases read
      · rename_i solid
        exact ⟨s, text, Bool.eq_false_iff.2 solid⟩
    · cases read

theorem anchorOfJson_of_schema {fields : List (String × Value)} (label : String)
    (anchor : MayHave (fun v => v = .null ∨ FilledText v) fields "at") :
    ∃ a, anchorOfJson fields label = .ok a := by
  unfold anchorOfJson
  cases found : getField? fields "at" with
  | none => exact ⟨none, rfl⟩
  | some v =>
    rcases anchor v found with rfl | ⟨s, text, filled⟩
    · exact ⟨none, rfl⟩
    · refine ⟨some s, ?_⟩
      cases v with
      | null => cases text
      | _ =>
        simp only []
        rw [text]
        show (if (Text.trimString s).isEmpty then _ else _) = _
        rw [filled]
        rfl

theorem anchorOfJson_onlyBadInput (fields : List (String × Value)) (label : String) :
    OnlyBadInput (anchorOfJson fields label) := by
  unfold anchorOfJson
  split
  · exact OnlyBadInput.ok _
  · exact OnlyBadInput.ok _
  · split
    · split
      · exact OnlyBadInput.refuse _
      · exact OnlyBadInput.ok _
    · exact OnlyBadInput.refuse _

theorem payloadOfJson_ok_iff {fields : List (String × Value)} (label : String) :
    (∃ payload, payloadOfJson fields label = .ok payload) ↔
      MayHave (ObjectOf fun _ => True) fields "payload" := by
  unfold payloadOfJson MayHave ObjectOf
  cases found : getField? fields "payload" with
  | none => simp [Value.fields?]
  | some v =>
    rw [Option.getD_some]
    cases object : v.fields? with
    | none => simp [refuse, object]
    | some payload => simp [object]

theorem payloadOfJson_onlyBadInput (fields : List (String × Value)) (label : String) :
    OnlyBadInput (payloadOfJson fields label) := by
  unfold payloadOfJson
  split
  · exact OnlyBadInput.ok _
  · exact OnlyBadInput.refuse _

theorem positionOfJson_ok_iff {fields : List (String × Value)} (label : String) :
    (∃ p, positionOfJson fields label = .ok p) ↔
      ∃ x y z : Int, getField? fields "position" = some (.arr [.int x, .int y, .int z]) := by
  unfold positionOfJson
  constructor
  · rintro ⟨p, read⟩
    split at read
    · rename_i x y z found
      exact ⟨x, y, z, found⟩
    · cases read
  · rintro ⟨x, y, z, found⟩
    rw [found]
    exact ⟨(x, y, z), rfl⟩

theorem positionOfJson_onlyBadInput (fields : List (String × Value)) (label : String) :
    OnlyBadInput (positionOfJson fields label) := by
  unfold positionOfJson
  split
  · exact OnlyBadInput.ok _
  · exact OnlyBadInput.refuse _

theorem offsetOfJson_ok_iff {fields : List (String × Value)} (label : String) :
    (∃ n, offsetOfJson fields label = .ok n) ↔
      ∃ n : Int, getField? fields "offset" = some (.int n) ∧ 0 ≤ n := by
  unfold offsetOfJson
  constructor
  · rintro ⟨m, read⟩
    split at read
    · rename_i n found
      split at read
      · cases read
      · exact ⟨n, found, by omega⟩
    · cases read
  · rintro ⟨n, found, nonnegative⟩
    rw [found]
    exact ⟨_, if_neg (by omega)⟩

theorem offsetOfJson_onlyBadInput (fields : List (String × Value)) (label : String) :
    OnlyBadInput (offsetOfJson fields label) := by
  unfold offsetOfJson
  split
  · split
    · exact OnlyBadInput.refuse _
    · exact OnlyBadInput.ok _
  · exact OnlyBadInput.refuse _

/-! ## Actions -/

theorem Action.schema_of_ofJson {fields : List (String × Value)} {label : String} {a : Action}
    (read : Action.ofJson fields label = .ok a) : ActionSchema fields := by
  unfold Action.ofJson at read
  split at read
  · rename_i type
    obtain ⟨_, targetRead, read⟩ := bind_eq_ok.1 read
    obtain ⟨channel, channelRead, read⟩ := bind_eq_ok.1 read
    obtain ⟨_, valuesRead, read⟩ := bind_eq_ok.1 read
    obtain ⟨_, durationRead, read⟩ := bind_eq_ok.1 read
    obtain ⟨_, startRead, read⟩ := bind_eq_ok.1 read
    obtain ⟨-, arity⟩ := merge?_ok_iff.1 ⟨a, mapError_eq_ok.1 read⟩
    obtain ⟨items, found, single, length, -⟩ := requireNumbers_schema valuesRead
    exact .merge channel items type (filledField_schema targetRead)
      (namedField_schema Channel.name_of_ofName? channelRead) found single (length ▸ arity)
      (requireTicks_schema durationRead) (requireTicks_schema startRead)
  · rename_i type
    obtain ⟨kind, kindRead, read⟩ := bind_eq_ok.1 read
    obtain ⟨_, tagsRead, read⟩ := bind_eq_ok.1 read
    obtain ⟨_, anchorRead, -⟩ := bind_eq_ok.1 read
    obtain ⟨items, found, nonempty, texts⟩ := tagsOfJson_schema tagsRead
    exact .summon kind items type (namedField_schema EntityKind.name_of_ofName? kindRead) found
      nonempty texts (anchorOfJson_schema anchorRead)
  · rename_i type
    obtain ⟨_, targetRead, read⟩ := bind_eq_ok.1 read
    obtain ⟨kind, kindRead, read⟩ := bind_eq_ok.1 read
    obtain ⟨_, payloadRead, -⟩ := bind_eq_ok.1 read
    exact .setState kind type (filledField_schema targetRead)
      (namedField_schema StateKind.name_of_ofName? kindRead)
      ((payloadOfJson_ok_iff _).1 ⟨_, payloadRead⟩)
  · rename_i type
    obtain ⟨_, positionRead, read⟩ := bind_eq_ok.1 read
    obtain ⟨_, blockRead, -⟩ := bind_eq_ok.1 read
    obtain ⟨x, y, z, found⟩ := (positionOfJson_ok_iff _).1 ⟨_, positionRead⟩
    exact .setBlock x y z type found (filledField_schema blockRead)
  · rename_i type
    obtain ⟨_, commandRead, -⟩ := bind_eq_ok.1 read
    exact .raw type (filledField_schema commandRead)
  · cases read

theorem Action.ofJson_of_schema {fields : List (String × Value)} (label : String)
    (schema : ActionSchema fields) : ∃ a, Action.ofJson fields label = .ok a := by
  unfold Action.ofJson
  cases schema with
  | merge channel items type target named numbers single arity duration start =>
    rw [type]
    dsimp only
    obtain ⟨_, targetRead⟩ := filledField_of_schema _ target
    obtain ⟨values, valuesRead, length, finite⟩ :=
      requireNumbers_of_schema label numbers single
    obtain ⟨_, durationRead⟩ := requireTicks_of_schema label 0 duration
    obtain ⟨_, startRead⟩ := requireTicks_of_schema label 0 start
    obtain ⟨a, made⟩ := merge?_ok_iff.2 ⟨finite, length.trans arity⟩
    refine ⟨a, ?_⟩
    rw [show requireText fields "target" label = _ from targetRead, ok_bind,
      namedField_str named (Channel.ofName?_name channel), ok_bind, valuesRead, ok_bind,
      durationRead, ok_bind, startRead, ok_bind, made]
    rfl
  | summon kind items type named tagged nonempty texts anchor =>
    rw [type]
    simp only []
    obtain ⟨_, tagsRead⟩ := tagsOfJson_of_schema label tagged nonempty texts
    obtain ⟨_, anchorRead⟩ := anchorOfJson_of_schema label anchor
    rw [namedField_str named (EntityKind.ofName?_name kind), ok_bind, tagsRead, ok_bind,
      anchorRead, ok_bind]
    exact ⟨_, rfl⟩
  | setState kind type target named payload =>
    rw [type]
    simp only []
    obtain ⟨_, targetRead⟩ := filledField_of_schema _ target
    obtain ⟨_, payloadRead⟩ := (payloadOfJson_ok_iff label).2 payload
    rw [show requireText fields "target" label = _ from targetRead, ok_bind,
      namedField_str named (StateKind.ofName?_name kind), ok_bind, payloadRead, ok_bind]
    exact ⟨_, rfl⟩
  | setBlock x y z type position blockId =>
    rw [type]
    simp only []
    obtain ⟨_, positionRead⟩ := (positionOfJson_ok_iff label).2 ⟨x, y, z, position⟩
    obtain ⟨_, blockRead⟩ := filledField_of_schema _ blockId
    rw [positionRead, ok_bind, show requireText fields "block_id" label = _ from blockRead, ok_bind]
    exact ⟨_, rfl⟩
  | raw type command =>
    rw [type]
    simp only []
    obtain ⟨_, commandRead⟩ := filledField_of_schema _ command
    rw [show requireText fields "command" label = _ from commandRead, ok_bind]
    exact ⟨_, rfl⟩

theorem Action.ofJson_onlyBadInput (fields : List (String × Value)) (label : String) :
    OnlyBadInput (Action.ofJson fields label) := by
  unfold Action.ofJson
  split
  · refine .bind (filledField_onlyBadInput _ _ _) fun _ _ => ?_
    refine .bind (namedField_onlyBadInput _ _ _ _) fun _ _ => ?_
    refine .bind (requireNumbers_onlyBadInput _ _ _) fun _ _ => ?_
    refine .bind (requireTicks_onlyBadInput _ _ _ _) fun _ _ => ?_
    refine .bind (requireTicks_onlyBadInput _ _ _ _) fun _ _ => ?_
    exact OnlyBadInput.mapError _ _
  · refine .bind (namedField_onlyBadInput _ _ _ _) fun _ _ => ?_
    refine .bind (tagsOfJson_onlyBadInput _ _) fun _ _ => ?_
    exact .bind (anchorOfJson_onlyBadInput _ _) fun _ _ => OnlyBadInput.ok _
  · refine .bind (filledField_onlyBadInput _ _ _) fun _ _ => ?_
    refine .bind (namedField_onlyBadInput _ _ _ _) fun _ _ => ?_
    exact .bind (payloadOfJson_onlyBadInput _ _) fun _ _ => OnlyBadInput.ok _
  · refine .bind (positionOfJson_onlyBadInput _ _) fun _ _ => ?_
    exact .bind (filledField_onlyBadInput _ _ _) fun _ _ => OnlyBadInput.ok _
  · exact .bind (filledField_onlyBadInput _ _ _) fun _ _ => OnlyBadInput.ok _
  · exact OnlyBadInput.refuse _

/-! ## Rules -/

theorem ruleOfJson_schema {label : String} {item : Value} {r : Rule}
    (read : ruleOfJson label item = .ok r) : RuleSchema item := by
  unfold ruleOfJson at read
  split at read
  · rename_i fields object
    obtain ⟨_, offsetRead, read⟩ := bind_eq_ok.1 read
    split at read
    · rename_i actionFields actionObject
      obtain ⟨_, actionRead, -⟩ := bind_eq_ok.1 read
      refine ⟨fields, object, (offsetOfJson_ok_iff _).1 ⟨_, offsetRead⟩, ?_⟩
      cases found : getField? fields "action" with
      | none =>
        rw [found] at actionObject
        cases actionObject
      | some v =>
        rw [found, Option.getD_some] at actionObject
        exact ⟨v, found, actionFields, actionObject, Action.schema_of_ofJson actionRead⟩
    · cases read
  · cases read

theorem ruleOfJson_of_schema (label : String) {item : Value} (schema : RuleSchema item) :
    ∃ r, ruleOfJson label item = .ok r := by
  obtain ⟨fields, object, offset, v, found, actionFields, actionObject, action⟩ := schema
  obtain ⟨_, offsetRead⟩ := (offsetOfJson_ok_iff label).2 offset
  obtain ⟨_, actionRead⟩ := Action.ofJson_of_schema (label ++ ".action") action
  unfold ruleOfJson
  rw [object]
  simp only []
  rw [offsetRead, ok_bind, found, Option.getD_some, actionObject]
  simp only []
  rw [actionRead]
  exact ⟨_, rfl⟩

theorem ruleOfJson_onlyBadInput (label : String) (item : Value) :
    OnlyBadInput (ruleOfJson label item) := by
  unfold ruleOfJson
  split
  · refine .bind (offsetOfJson_onlyBadInput _ _) fun _ _ => ?_
    split
    · exact .bind (Action.ofJson_onlyBadInput _ _) fun _ _ => OnlyBadInput.ok _
    · exact OnlyBadInput.refuse _
  · exact OnlyBadInput.refuse _

theorem rulesOfJson_ok_iff (i : Nat) (items : List Value) :
    (∃ rules, rulesOfJson i items = .ok rules) ↔ ∀ item ∈ items, RuleSchema item := by
  induction items generalizing i with
  | nil => exact ⟨fun _ => nofun, fun _ => ⟨[], rfl⟩⟩
  | cons item rest ih =>
    rw [List.forall_mem_cons, ← ih (i + 1), rulesOfJson]
    constructor
    · rintro ⟨rules, read⟩
      obtain ⟨r, first, read⟩ := bind_eq_ok.1 read
      obtain ⟨later, laterRead, -⟩ := bind_eq_ok.1 read
      exact ⟨ruleOfJson_schema first, later, laterRead⟩
    · rintro ⟨schema, later, laterRead⟩
      obtain ⟨r, first⟩ := ruleOfJson_of_schema _ schema
      rw [first, ok_bind, laterRead]
      exact ⟨_, rfl⟩

theorem rulesOfJson_onlyBadInput (i : Nat) (items : List Value) :
    OnlyBadInput (rulesOfJson i items) := by
  induction items generalizing i with
  | nil => exact OnlyBadInput.ok _
  | cons item rest ih =>
    rw [rulesOfJson]
    exact .bind (ruleOfJson_onlyBadInput _ _) fun _ _ => .bind (ih (i + 1)) fun _ _ => OnlyBadInput.ok _

/-! ## Documents -/

theorem allCommands_isSome_iff :
    ∀ items : List Value, (allCommands items).isSome ↔ ∀ c ∈ items, FilledText c
  | [] => by simp [allCommands]
  | v :: rest => by
    rw [List.forall_mem_cons, ← allCommands_isSome_iff rest, allCommands]
    unfold FilledText
    cases v.text? with
    | none => simp
    | some s =>
      cases solid : (Text.trimString s).isEmpty with
      | true => simp [Text.Filled, String.isEmpty_iff.1 solid]
      | false => simp [Text.Filled, solid, String.isEmpty_eq_false_iff.1 solid]

theorem everyTickOfJson_ok_iff {fields : List (String × Value)} :
    (∃ commands, everyTickOfJson fields = .ok commands) ↔
      MayHave (ArrayOf FilledText) fields "every_tick" := by
  unfold everyTickOfJson MayHave
  cases found : getField? fields "every_tick" with
  | none => simp [allCommands]
  | some v =>
    rw [Option.getD_some]
    cases v with
    | arr items =>
      simp only [ArrayOf, Option.some.injEq, forall_eq']
      rw [← allCommands_isSome_iff]
      cases allCommands items <;> simp [refuse]
    | _ => simp [ArrayOf, refuse]

theorem everyTickOfJson_onlyBadInput (fields : List (String × Value)) :
    OnlyBadInput (everyTickOfJson fields) := by
  unfold everyTickOfJson
  split
  · split
    · exact OnlyBadInput.ok _
    · exact OnlyBadInput.refuse _
  · exact OnlyBadInput.refuse _

theorem endOffsetOfJson_ok_iff {fields : List (String × Value)} :
    (∃ e, endOffsetOfJson fields = .ok e) ↔
      MayHave (fun v => v = .null ∨ TickCount v) fields "end_offset" := by
  unfold endOffsetOfJson MayHave
  cases found : getField? fields "end_offset" with
  | none => simp
  | some v =>
    cases v with
    | null => simp
    | int n =>
      by_cases negative : n < 0
      · simp [TickCount, refuse, negative]
      · simp [TickCount, negative]
        omega
    | bool b => simp [TickCount]
    | _ => simp [TickCount, refuse]

theorem endOffsetOfJson_onlyBadInput (fields : List (String × Value)) :
    OnlyBadInput (endOffsetOfJson fields) := by
  unfold endOffsetOfJson
  split
  · exact OnlyBadInput.ok _
  · exact OnlyBadInput.ok _
  · split
    · exact OnlyBadInput.refuse _
    · exact OnlyBadInput.ok _
  · exact OnlyBadInput.ok _
  · exact OnlyBadInput.refuse _

theorem Document.schema_of_ofJson {raw : Value} {d : Document} (read : Document.ofJson raw = .ok d) :
    ObjectOf TableSchema raw := by
  unfold Document.ofJson at read
  split at read
  · rename_i fields object
    obtain ⟨_, nameRead, read⟩ := bind_eq_ok.1 read
    obtain ⟨_, endRead, read⟩ := bind_eq_ok.1 read
    obtain ⟨_, everyRead, read⟩ := bind_eq_ok.1 read
    split at read
    · rename_i items array
      obtain ⟨_, rulesRead, -⟩ := bind_eq_ok.1 read
      refine ⟨fields, object, filledField_schema nameRead, endOffsetOfJson_ok_iff.1 ⟨_, endRead⟩,
        everyTickOfJson_ok_iff.1 ⟨_, everyRead⟩, ?_⟩
      cases found : getField? fields "rules" with
      | none =>
        rw [found] at array
        cases array
      | some v =>
        rw [found, Option.getD_some] at array
        subst array
        exact ⟨.arr items, found, (rulesOfJson_ok_iff 0 items).1 ⟨_, rulesRead⟩⟩
    · cases read
  · cases read

theorem Document.ofJson_of_schema {raw : Value} (schema : ObjectOf TableSchema raw) :
    ∃ d, Document.ofJson raw = .ok d := by
  obtain ⟨fields, object, table⟩ := schema
  obtain ⟨_, nameRead⟩ :=
    filledField_of_schema "timeline must be a non-empty string" table.timeline
  obtain ⟨_, endRead⟩ := endOffsetOfJson_ok_iff.2 table.endOffset
  obtain ⟨_, everyRead⟩ := everyTickOfJson_ok_iff.2 table.everyTick
  obtain ⟨v, found, array⟩ := table.rules
  cases v with
  | arr items =>
    obtain ⟨_, rulesRead⟩ := (rulesOfJson_ok_iff 0 items).2 array
    unfold Document.ofJson
    rw [object]
    simp only []
    rw [show nameOfJson fields = _ from nameRead, ok_bind, endRead, ok_bind, everyRead, ok_bind,
      found, Option.getD_some]
    simp only []
    rw [rulesRead, ok_bind]
    exact ⟨_, rfl⟩
  | _ => cases array

theorem Document.ofJson_onlyBadInput (raw : Value) : OnlyBadInput (Document.ofJson raw) := by
  unfold Document.ofJson
  split
  · refine .bind (filledField_onlyBadInput _ _ _) fun _ _ => ?_
    refine .bind (endOffsetOfJson_onlyBadInput _) fun _ _ => ?_
    refine .bind (everyTickOfJson_onlyBadInput _) fun _ _ => ?_
    split
    · exact .bind (rulesOfJson_onlyBadInput _ _) fun _ _ => OnlyBadInput.ok _
    · exact OnlyBadInput.refuse _
  · exact OnlyBadInput.refuse _

/-- The reader takes exactly the documents of the schema; whatever it refuses, it refuses as a
bad input. -/
theorem ofJson_accepts_schema (raw : Value) :
    ((∃ d, Document.ofJson raw = .ok d) ↔ ObjectOf TableSchema raw) ∧
      ∀ f, Document.ofJson raw = .error f → f.isBadInput = true :=
  ⟨⟨fun ⟨_, accepted⟩ => Document.schema_of_ofJson accepted, Document.ofJson_of_schema⟩,
    Document.ofJson_onlyBadInput raw⟩

end Keyframes
