import Keyframes.Proofs.Tick
import Keyframes.Proofs.Except

/-!
# What an action touches in the world

An action that reaches the world is recorded once and then changes only its own footprint
(`Action.Touches`):

* a merge writes its channel and both interpolation counts of every entity carrying its tag;
* a position state adds the payload's offset to the position of every entity carrying its tag,
  and any other state is stored under its kind on them, the payload as the value;
* a summon adds one entity with the next id, of its kind and tags, where the first entity
  carrying the anchor stands, else at the origin;
* a block placement changes the block at its position only, and a command is appended.

The entities of a position state are moved one after another, each found again by its id, so
this needs the ids to be distinct. They are in every world the engine builds: placing and
summoning number the entities 1, 2, 3, … in order (`World.Numbered`), and every call keeps them
so, one that fails part-way too (`numbered_calls`).

Main statement: `engine_footprint`.
-/

namespace Keyframes
open Keyframes.Json

/-! ## Entities and field lists -/

/-- The values of a channel of an entity. -/
def Entity.channel (e : Entity) : Channel → List Float
  | .translation => e.translation
  | .leftRotation => e.leftRotation
  | .scale => e.scale

theorem Entity.hasTag_iff (e : Entity) (tag : String) : e.hasTag tag = true ↔ .str tag ∈ e.tags := by
  unfold Entity.hasTag
  rw [List.any_eq_true]
  constructor
  · rintro ⟨v, mem, named⟩
    cases v <;> simp_all
  · intro mem
    exact ⟨_, mem, by simp⟩

/-- A field list after `key` is given `v`, as a dictionary is: the key reads `v`, every other
key reads as before, and the keys keep their order, a new key coming last. -/
structure Assigned (fields fields' : List (String × Value)) (key : String) (v : Value) : Prop where
  reads : getField? fields' key = some v
  others : ∀ k, k ≠ key → getField? fields' k = getField? fields k
  keys : fields'.map (·.1) =
    if key ∈ fields.map (·.1) then fields.map (·.1) else fields.map (·.1) ++ [key]

theorem getField?_setField_of_ne {κ : Type} [DecidableEq κ] (fields : List (κ × Value))
    {key k : κ} (v : Value) (other : k ≠ key) :
    getField? (setField fields key v) k = getField? fields k := by
  induction fields with
  | nil => simp [setField, getField?, Ne.symm other]
  | cons f rest ih =>
    by_cases h : f.1 = key
    · simp [setField, getField?, h, Ne.symm other]
    · by_cases hk : f.1 = k <;> simp [setField, getField?, h, hk, ih, other]

theorem keys_setField {κ : Type} [DecidableEq κ] (fields : List (κ × Value)) (key : κ)
    (v : Value) :
    (setField fields key v).map (·.1) =
      if key ∈ fields.map (·.1) then fields.map (·.1) else fields.map (·.1) ++ [key] := by
  split
  · exact keys_setField_of_mem fields key v ‹_›
  · rename_i new
    induction fields with
    | nil => rfl
    | cons f rest ih =>
      have : f.1 ≠ key := fun e => new (by simp [e])
      simp only [setField, if_neg this, List.map_cons, List.cons_append]
      rw [ih fun mem => new (List.mem_cons_of_mem _ mem)]

theorem assigned_setField (fields : List (String × Value)) (key : String) (v : Value) :
    Assigned fields (setField fields key v) key v :=
  ⟨getField?_setField fields key v, fun _ other => getField?_setField_of_ne fields v other,
    keys_setField fields key v⟩

/-! ## What an action does to one entity -/

/-- What a merge does to an entity: the channel takes the values, both interpolation counts are
set, and the other channels and everything else stay. -/
structure Entity.Merged (channel : Channel) (values : List Float) (duration start : Ticks)
    (e e' : Entity) : Prop where
  channel_eq : ∀ c, e'.channel c = if c = channel then values else e.channel c
  duration_eq : e'.interpolationDuration = duration
  start_eq : e'.startInterpolation = start
  rest : { e' with
    translation := e.translation, leftRotation := e.leftRotation, scale := e.scale,
    interpolationDuration := e.interpolationDuration,
    startInterpolation := e.startInterpolation } = e

/-- What a position state does to an entity: the three values of the payload's offset are added
to the three of the position, and nothing else changes. -/
def Entity.Moved (payload : List (String × Value)) (e e' : Entity) : Prop :=
  ∃ offset dx dy dz x y z x' y' z', getField? payload "offset" = some offset ∧
    unpackable offset = .ok [dx, dy, dz] ∧ e.position = [x, y, z] ∧
    x.plus dx = .ok x' ∧ y.plus dy = .ok y' ∧ z.plus dz = .ok z' ∧
    e' = { e with position := [x', y', z'] }

/-- What any other state does to an entity: the payload is stored under the kind's name, and
nothing else changes. -/
structure Entity.Stored (kind : StateKind) (payload : List (String × Value)) (e e' : Entity) :
    Prop where
  assigned : Assigned e.state e'.state kind.name (.obj payload)
  rest : { e' with state := e.state } = e

/-- Every entity carrying `tag` changes as `change` says, and every other one stays. -/
def Tagged (tag : String) (change : Entity → Entity → Prop) (es es' : List Entity) : Prop :=
  List.Forall₂ (fun e e' => if e.hasTag tag = true then change e e' else e' = e) es es'

theorem Entity.merged_withChannel (e : Entity) (channel : Channel) (values : List Float)
    (duration start : Ticks) :
    e.Merged channel values duration start (e.withChannel channel values duration start) := by
  -- one case for each channel merged, and in it one for each channel read
  cases channel <;> exact ⟨fun c => by cases c <;> rfl, rfl, rfl, rfl⟩

theorem Entity.stored_withState (e : Entity) (kind : StateKind) (payload : List (String × Value)) :
    Entity.Stored kind payload e (e.withState kind payload) :=
  ⟨assigned_setField e.state kind.name (.obj payload), rfl⟩

theorem unpackTriple_eq_ok {vs : List Value} {t : Value × Value × Value}
    (unpacked : unpackTriple vs = .ok t) : vs = [t.1, t.2.1, t.2.2] := by
  unfold unpackTriple at unpacked
  split at unpacked
  · cases unpacked
    rfl
  · split at unpacked <;> cases unpacked

theorem Entity.moved_spec {e e' : Entity} {payload : List (String × Value)}
    (moved : e.moved payload = .ok e') : Entity.Moved payload e e' := by
  unfold Entity.moved at moved
  cases found : getField? payload "offset" with
  | none => simp [found] at moved
  | some offset =>
    simp only [found] at moved
    obtain ⟨vs, members, moved⟩ := bind_eq_ok.1 moved
    obtain ⟨⟨dx, dy, dz⟩, offsetTriple, moved⟩ := bind_eq_ok.1 moved
    obtain ⟨⟨x, y, z⟩, positionTriple, moved⟩ := bind_eq_ok.1 moved
    obtain ⟨x', sx, moved⟩ := bind_eq_ok.1 moved
    obtain ⟨y', sy, moved⟩ := bind_eq_ok.1 moved
    obtain ⟨z', sz, moved⟩ := bind_eq_ok.1 moved
    cases moved
    refine ⟨offset, dx, dy, dz, x, y, z, x', y', z', found, ?_, unpackTriple_eq_ok positionTriple,
      sx, sy, sz, rfl⟩
    rw [members, unpackTriple_eq_ok offsetTriple]

theorem Entity.moved_id {e e' : Entity} {payload : List (String × Value)}
    (moved : e.moved payload = .ok e') : e'.id = e.id := by
  obtain ⟨-, -, -, -, -, -, -, -, -, -, -, -, -, -, -, -, rfl⟩ := Entity.moved_spec moved
  rfl

theorem updateTagged_tagged (w : World) (tag : String) (f : Entity → Entity)
    {change : Entity → Entity → Prop} (changes : ∀ e, change e (f e)) :
    Tagged tag change w.entities (w.updateTagged tag f).entities := by
  unfold Tagged World.updateTagged
  rw [List.forall₂_map_right_iff, List.forall₂_same]
  intro e _
  split <;> simp_all

/-! ## A position state, entity by entity -/

/-- With distinct ids, replacing the entity of `e`'s id replaces `e` and nothing else. -/
theorem map_replace_of_nodup {before rest : List Entity} {e m : Entity}
    (distinct : ((before ++ e :: rest).map (·.id)).Nodup) :
    (before ++ e :: rest).map (fun f => if f.id == e.id then m else f) = before ++ m :: rest := by
  have fresh : e.id ∉ (before ++ rest).map (·.id) := by
    rw [List.map_append, List.map_cons, List.nodup_middle, List.nodup_cons, ← List.map_append] at distinct
    exact distinct.1
  have keeps : ∀ f ∈ before ++ rest, (if f.id == e.id then m else f) = f := by
    intro f mem
    have other : f.id ≠ e.id := fun same => fresh (List.mem_map.2 ⟨f, mem, same⟩)
    simp [other]
  have keepsBefore := List.map_congr_left fun f mem => keeps f (List.mem_append_left rest mem)
  have keepsRest := List.map_congr_left fun f mem => keeps f (List.mem_append_right before mem)
  rw [List.map_append, List.map_cons, keepsBefore, keepsRest, List.map_id', List.map_id',
    beq_self_eq_true, if_pos rfl]

theorem moveTagged_ok (tag : String) (payload : List (String × Value)) :
    ∀ (es before : List Entity) (w w' : World), w.entities = before ++ es →
      ((before ++ es).map (·.id)).Nodup → (moveTagged tag payload es).run.run w = (.ok (), w') →
      ∃ es', w' = { w with entities := before ++ es' } ∧ Tagged tag (Entity.Moved payload) es es'
  | [], before, w, w', standing, _, done => by
    cases done
    refine ⟨[], ?_, List.Forall₂.nil⟩
    rw [← standing]
  | e :: rest, before, w, w', standing, distinct, done => by
    simp only [moveTagged] at done
    split at done
    · rename_i tagged
      cases moved : e.moved payload with
      | error err =>
        simp only [moved, moveTagged.liftExcept] at done
        cases done
      | ok m =>
        simp only [moved, moveTagged.liftExcept] at done
        -- the moved entity takes the place of `e`, found by its id
        have replaced : w.entities.map (fun f => if f.id == e.id then m else f) =
            (before ++ [m]) ++ rest := by
          rw [standing, map_replace_of_nodup distinct, List.append_assoc, List.singleton_append]
        have distinct' : (((before ++ [m]) ++ rest).map (·.id)).Nodup := by
          simpa [Entity.moved_id moved] using distinct
        obtain ⟨es', rfl, later⟩ := moveTagged_ok tag payload rest (before ++ [m]) _ w' replaced
          distinct' done
        refine ⟨m :: es', by simp, List.Forall₂.cons ?_ later⟩
        rw [if_pos tagged]
        exact Entity.moved_spec moved
    · rename_i untagged
      obtain ⟨es', rfl, later⟩ := moveTagged_ok tag payload rest (before ++ [e]) w w'
        (by simp [standing]) (by simpa using distinct) done
      refine ⟨e :: es', by simp, List.Forall₂.cons ?_ later⟩
      rw [if_neg untagged]

/-! ## A summon -/

theorem sameTag_str {s t : String} (same : sameTag (.str s) (.str t) = true) : s = t := by
  have codes : Text.codes s = Text.codes t := by simpa [sameTag, Value.codes?] using same
  rw [← Text.ofCodes_codes s, codes, Text.ofCodes_codes]

/-- Gathering tags that are strings keeps exactly the tags met. -/
theorem mem_foldl_gather (x : String) :
    ∀ (tags : List String) (acc : List Value), (∀ v ∈ acc, ∃ s, v = .str s) →
      (.str x ∈ (tags.map Value.str).foldl
          (fun acc t => if acc.any (sameTag t) then acc else acc ++ [t]) acc ↔
        .str x ∈ acc ∨ x ∈ tags)
  | [], acc, _ => by simp
  | t :: rest, acc, strings => by
    rw [List.map_cons, List.foldl_cons]
    split
    · rename_i met
      -- a tag already met is one of the gathered ones
      obtain ⟨v, mem, same⟩ := List.any_eq_true.1 met
      obtain ⟨s, rfl⟩ := strings v mem
      rw [mem_foldl_gather x rest acc strings, List.mem_cons, sameTag_str same]
      constructor
      · rintro (gathered | later)
        · exact .inl gathered
        · exact .inr (.inr later)
      · rintro (gathered | rfl | later)
        · exact .inl gathered
        · exact .inl mem
        · exact .inr later
    · have strings' : ∀ v ∈ acc ++ [Value.str t], ∃ s, v = .str s := by
        intro v mem
        rcases List.mem_append.1 mem with old | fresh
        · exact strings v old
        · exact ⟨t, List.mem_singleton.1 fresh⟩
      rw [mem_foldl_gather x rest _ strings', List.mem_append, List.mem_singleton, List.mem_cons,
        Value.str.injEq]
      tauto

theorem mem_tagValues (tags : List String) (x : String) :
    .str x ∈ tagValues (tags.map .str) ↔ x ∈ tags := by
  rw [tagValues, List.mem_mergeSort, mem_foldl_gather x tags [] (by simp)]
  simp

/-- Where a summon stands: at the first entity carrying the anchor, or at the origin when none
does or there is no anchor. -/
def World.AnchorAt (w : World) : Option String → List Value → Prop
  | none, position => position = origin
  | some tag, position =>
    (∃ before f after, w.entities = before ++ f :: after ∧ f.hasTag tag = true ∧
      (∀ g ∈ before, g.hasTag tag = false) ∧ position = f.position) ∨
    ((∀ g ∈ w.entities, g.hasTag tag = false) ∧ position = origin)

theorem anchorAt_select (w : World) (tag : String) :
    w.AnchorAt (some tag) (((w.select tag).head?.map (·.position)).getD origin) := by
  rw [World.select, List.head?_filter]
  cases found : w.entities.find? (·.hasTag tag) with
  | some f =>
    obtain ⟨tagged, before, after, split, untagged⟩ := List.find?_eq_some_iff_append.1 found
    exact .inl ⟨before, f, after, split, tagged, fun g mem => by simpa using untagged g mem, rfl⟩
  | none =>
    refine .inr ⟨fun g mem => ?_, rfl⟩
    simpa using List.find?_eq_none.1 found g mem

/-! ## Blocks -/

theorem lookup_replace_block (blocks : List ((Int × Int × Int) × String)) (pos p : Int × Int × Int)
    (blockId : String) :
    (blocks.map fun b => if b.1 == pos then (pos, blockId) else b).lookup p =
      if p = pos then (if blocks.any (·.1 == pos) then some blockId else none)
      else blocks.lookup p := by
  induction blocks with
  | nil => simp
  | cons b rest ih =>
    by_cases hb : b.1 = pos <;> by_cases hp : p = pos <;> simp_all [List.lookup] <;> grind

theorem lookup_placeBlock (blocks : List ((Int × Int × Int) × String)) (pos p : Int × Int × Int)
    (blockId : String) :
    (World.placeBlock blocks pos blockId).lookup p = if p = pos then some blockId else blocks.lookup p := by
  unfold World.placeBlock
  split
  · rename_i placed
    rw [lookup_replace_block, if_pos placed]
  · rename_i fresh
    rw [List.lookup_append]
    by_cases hp : p = pos
    · subst hp
      -- the position has no block yet
      have absent : blocks.lookup p = none := by
        rw [List.lookup_eq_none_iff]
        intro b mem
        rw [bne_iff_ne]
        rintro rfl
        exact fresh (List.any_eq_true.2 ⟨b, mem, beq_self_eq_true _⟩)
      simp [absent]
    · have other : (p == pos) = false := by simpa using hp
      simp [List.lookup, hp, other]

/-! ## Ids -/

/-- The entities of a world are numbered 1, 2, 3, … in order, and the next id follows them. -/
def World.Numbered (w : World) : Prop :=
  w.entities.map (·.id) = List.range' 1 w.entities.length ∧ w.nextId = w.entities.length + 1

theorem World.Numbered.nodup {w : World} (numbered : w.Numbered) :
    (w.entities.map (·.id)).Nodup := by
  rw [numbered.1]
  exact List.nodup_range'

theorem World.Numbered.of_ids {w w' : World} (numbered : w.Numbered)
    (ids : w'.entities.map (·.id) = w.entities.map (·.id)) (next : w'.nextId = w.nextId) :
    w'.Numbered := by
  have length : w'.entities.length = w.entities.length := by
    simpa using congrArg List.length ids
  exact ⟨by rw [ids, numbered.1, length], by rw [next, numbered.2, length]⟩

theorem World.Numbered.push {w w' : World} {e : Entity} (numbered : w.Numbered)
    (added : w'.entities = w.entities ++ [e]) (fresh : e.id = w.nextId)
    (next : w'.nextId = w.nextId + 1) : w'.Numbered := by
  refine ⟨?_, ?_⟩
  · rw [added, List.map_append, numbered.1, List.length_append, List.length_singleton,
      List.range'_concat, List.map_singleton, fresh, numbered.2]
    simp [Nat.add_comm]
  · rw [next, numbered.2, added, List.length_append, List.length_singleton]

theorem numbered_empty : ({} : World).Numbered := ⟨rfl, rfl⟩

theorem addEntity_numbered {w : World} (numbered : w.Numbered) (kind : EntityKind)
    (tags position : List Value) : (w.addEntity kind tags position).2.Numbered :=
  numbered.push rfl rfl rfl

theorem updateTagged_ids (w : World) (tag : String) {f : Entity → Entity}
    (keeps : ∀ e, (f e).id = e.id) :
    (w.updateTagged tag f).entities.map (·.id) = w.entities.map (·.id) := by
  simp only [World.updateTagged, List.map_map]
  refine List.map_congr_left fun e _ => ?_
  simp only [Function.comp_apply]
  split
  · exact keeps e
  · rfl

/-- Moving entities keeps every id, also when a move fails part-way. -/
theorem moveTagged_ids (tag : String) (payload : List (String × Value)) :
    ∀ (es : List Entity) (w : World),
      ((moveTagged tag payload es).run.run w).2.entities.map (·.id) = w.entities.map (·.id) ∧
        ((moveTagged tag payload es).run.run w).2.nextId = w.nextId
  | [], w => ⟨rfl, rfl⟩
  | e :: rest, w => by
    simp only [moveTagged]
    split
    · cases moved : e.moved payload with
      | error err => exact ⟨rfl, rfl⟩
      | ok m =>
        obtain ⟨ids, next⟩ := moveTagged_ids tag payload rest
          { w with entities := w.entities.map fun f => if f.id == e.id then m else f }
        refine ⟨ids.trans ?_, next⟩
        simp only [List.map_map]
        refine List.map_congr_left fun f _ => ?_
        simp only [Function.comp_apply]
        split
        · rename_i same
          rw [Entity.moved_id moved, eq_of_beq same]
        · rfl
    · exact moveTagged_ids tag payload rest w

theorem perform_setState_run {target : String} {kind : StateKind} {payload : List (String × Value)}
    (other : kind ≠ .position) (w : World) :
    (perform (.setState target kind payload)).run.run w =
      (.ok (), { w with calls := w.calls ++ [.setState target kind payload],
                        entities := (w.updateTagged target fun e => e.withState kind payload).entities }) := by
  cases kind with
  | position => exact absurd rfl other
  | block | item | text => rfl

theorem perform_position_run (target : String) (payload : List (String × Value)) (w : World) :
    (perform (.setState target .position payload)).run.run w =
      (moveTagged target payload w.entities).run.run
        { w with calls := w.calls ++ [.setState target .position payload] } :=
  rfl

/-- Every action keeps the entities numbered, whether it goes through or fails part-way. -/
theorem perform_numbered (a : Action) {w : World} (numbered : w.Numbered) :
    ((perform a).run.run w).2.Numbered := by
  cases a with
  | merge target channel values duration start =>
    exact numbered.of_ids (updateTagged_ids w target fun e => by cases channel <;> rfl) rfl
  | summon kind tags anchor => exact numbered.push rfl rfl rfl
  | setState target kind payload =>
    by_cases other : kind = .position
    · subst other
      obtain ⟨ids, next⟩ := moveTagged_ids target payload w.entities
        { w with calls := w.calls ++ [.setState target .position payload] }
      rw [perform_position_run]
      exact numbered.of_ids ids next
    · rw [perform_setState_run other]
      exact numbered.of_ids (updateTagged_ids w target fun _ => rfl) rfl
  | setBlock x y z blockId => exact numbered.of_ids rfl rfl
  | raw command => exact numbered.of_ids rfl rfl

/-- A call on the world from outside: placing an entity, or carrying out an action. -/
inductive WorldCall where
  | place (kind : EntityKind) (tags position : List Value)
  | act (a : Action)

/-- The world after a call, whether the call went through or failed part-way. -/
def WorldCall.apply (w : World) : WorldCall → World
  | .place kind tags position => (w.addEntity kind tags position).2
  | .act a => ((perform a).run.run w).2

theorem numbered_calls : ∀ (calls : List WorldCall) {w : World}, w.Numbered →
    (calls.foldl WorldCall.apply w).Numbered
  | [], _, numbered => numbered
  | call :: rest, w, numbered => by
    rw [List.foldl_cons]
    apply numbered_calls rest
    cases call with
    | place kind tags position => exact addEntity_numbered numbered kind tags position
    | act a => exact perform_numbered a numbered

/-! ## The footprint of an action -/

/-- What an action may change in the world besides its record. -/
def Action.Touches : Action → World → World → Prop
  | .merge target channel values duration start, w, w' =>
    Tagged target (Entity.Merged channel values duration start) w.entities w'.entities ∧
      { w' with entities := w.entities } = w
  | .summon kind tags anchor, w, w' =>
    ∃ e, w'.entities = w.entities ++ [e] ∧
      -- a fresh entity: every field but its tags and its position has its first value
      e = { id := w.nextId, kind, tags := e.tags, position := e.position } ∧
      (∀ t, e.hasTag t = true ↔ t ∈ tags) ∧ w.AnchorAt anchor e.position ∧
      w'.nextId = w.nextId + 1 ∧ { w' with entities := w.entities, nextId := w.nextId } = w
  | .setState target kind payload, w, w' =>
    Tagged target (if kind = .position then Entity.Moved payload else Entity.Stored kind payload)
        w.entities w'.entities ∧
      { w' with entities := w.entities } = w
  | .setBlock x y z blockId, w, w' =>
    (∀ p, w'.blocks.lookup p = if p = (x, y, z) then some blockId else w.blocks.lookup p) ∧
      { w' with blocks := w.blocks } = w
  | .raw command, w, w' =>
    w'.commands = w.commands ++ [command] ∧ { w' with commands := w.commands } = w

theorem perform_touches {a : Action} {w w' : World} (distinct : (w.entities.map (·.id)).Nodup)
    (done : (perform a).run.run w = (.ok (), w')) : a.Touches w { w' with calls := w.calls } := by
  cases a with
  | merge target channel values duration start =>
    cases done
    exact ⟨updateTagged_tagged w target _ fun e => e.merged_withChannel channel values duration start,
      rfl⟩
  | summon kind tags anchor =>
    cases done
    refine ⟨_, rfl, rfl, fun t => ?_, ?_, rfl, rfl⟩
    · rw [Entity.hasTag_iff, mem_tagValues]
    · cases anchor with
      | none => rfl
      | some tag => exact anchorAt_select w tag
  | setState target kind payload =>
    by_cases position : kind = .position
    · subst position
      rw [perform_position_run] at done
      obtain ⟨es', rfl, moved⟩ := moveTagged_ok target payload w.entities []
        { w with calls := w.calls ++ [.setState target .position payload] } w' rfl distinct done
      exact ⟨by simpa using moved, rfl⟩
    · rw [perform_setState_run position] at done
      cases done
      refine ⟨?_, rfl⟩
      rw [if_neg position]
      exact updateTagged_tagged w target _ fun e => e.stored_withState kind payload
  | setBlock x y z blockId =>
    cases done
    exact ⟨fun p => lookup_placeBlock _ _ _ _, rfl⟩
  | raw command =>
    cases done
    exact ⟨rfl, rfl⟩

theorem engine_footprint :
    (∀ (a : Action) (w w' : World), (w.entities.map (·.id)).Nodup →
      (perform a).run.run w = (.ok (), w') →
        w'.calls = w.calls ++ [a] ∧ a.Touches w { w' with calls := w.calls }) ∧
    ∀ (calls : List WorldCall) (w : World), w.Numbered → (calls.foldl WorldCall.apply w).Numbered :=
  ⟨fun a w w' distinct done => ⟨by simpa [done] using Play.perform_calls a w, perform_touches distinct done⟩,
    fun calls _ numbered => numbered_calls calls numbered⟩

/-- Two entities, the first tagged `a` at (1, 2, 3), the second tagged `b` at the origin. -/
def pairWorld : World :=
  { entities := [{ id := 1, kind := .blockDisplay, tags := [.str "a"], position := [.int 1, .int 2, .int 3] },
                 { id := 2, kind := .textDisplay, tags := [.str "b"], position := [.int 0, .int 0, .int 0] }]
    nextId := 3 }

/-- Moves the entities tagged `a` one step along x. -/
def nudge : Action :=
  .setState "a" .position [("offset", .arr [.int 1, .int 0, .int 0])]

theorem engine_footprint_pair :
    (pairWorld.entities.map (·.id)).Nodup ∧
      (perform nudge).run.run pairWorld =
        (.ok (), { pairWorld with
          entities := [{ id := 1, kind := .blockDisplay, tags := [.str "a"], position := [.int 2, .int 2, .int 3] },
                       { id := 2, kind := .textDisplay, tags := [.str "b"], position := [.int 0, .int 0, .int 0] }]
          calls := [nudge] }) ∧
      nudge.Touches pairWorld { pairWorld with
          entities := [{ id := 1, kind := .blockDisplay, tags := [.str "a"], position := [.int 2, .int 2, .int 3] },
                       { id := 2, kind := .textDisplay, tags := [.str "b"], position := [.int 0, .int 0, .int 0] }] } ∧
      pairWorld.Numbered ∧
      ([WorldCall.act nudge, .act (.summon .itemDisplay ["c"] (some "b"))].foldl WorldCall.apply pairWorld).Numbered :=
  ⟨by decide, rfl, (engine_footprint.1 nudge pairWorld _ (by decide) rfl).2, ⟨rfl, rfl⟩,
    engine_footprint.2 _ pairWorld ⟨rfl, rfl⟩⟩

end Keyframes
