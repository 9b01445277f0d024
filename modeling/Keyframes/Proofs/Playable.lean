import Keyframes.Proofs.Framing
import Keyframes.Proofs.Refinement

/-!
# Documents that play and render

The reader takes the payload of an entity state as any object, while the world and the script
read fields of it: a position moves by the three numbers under `offset`, a block writes its `id`
and the object of its `properties`, an item its `item`, a text its `text`. A payload has the
shape its kind documents when those fields are there (`StateKind.Shaped`). Every baked document
has it; a read document has it when its state payloads do, as the reader rounds every merge.

A table whose actions have their shapes plays in any world whose entities stand at three doubles
(as the world places them) with timers that are numbers (`Player.Ready`): a tick never fails and
leaves the player ready, and so do a game tick and a run of them from a player whose registered
tables all have their shapes (`Player.Playable`). Every rule of such a table renders but for
one fault (`OnlyOverflow`): a value whose short decimal, read back, leaves the single range.

A payload without its fields is taken by the reader and then refused by both:
`offsetless_document_refused`.

Main statement: `playable_documents`.
-/

namespace Keyframes
open Keyframes.Json Keyframes.Binary

/-! ## Payload shapes -/

/-- A number an offset may hold: an integer, a truth value or a double, whose double is finite. -/
def Json.Value.FiniteNumber (v : Value) : Prop :=
  ∃ n x, v.asNumber? = some n ∧ n.toFloat = .ok x ∧ isFinite x = true

/-- The payload a state kind documents: a block names its `id`, with an object of `properties`
or a value that counts as absent; an item names its `item`; a text holds a string under `text`;
a position moves by three finite numbers under `offset`. -/
def StateKind.Shaped : StateKind → List (String × Value) → Prop
  | .block, payload => (getField? payload "id").isSome ∧
      ∀ v, getField? payload "properties" = some v → v.truthy = false ∨ ∃ fields, v = .obj fields
  | .item, payload => (getField? payload "item").isSome
  | .text, payload => ((getField? payload "text").bind Value.text?).isSome
  | .position, payload => ∃ dx dy dz, getField? payload "offset" = some (.arr [dx, dy, dz]) ∧
      dx.FiniteNumber ∧ dy.FiniteNumber ∧ dz.FiniteNumber

/-- An action has its shape: a merge holds single-precision values, an entity state the payload
of its kind. -/
def Action.Shaped : Action → Prop
  | .merge _ _ values _ _ => ∀ v ∈ values, IsSingle v
  | .setState _ kind payload => kind.Shaped payload
  | _ => True

/-- Every action of a table has its shape. -/
def RuleTable.Shaped (t : RuleTable) : Prop :=
  ∀ r ∈ t.rules, r.action.Shaped

/-- Every entity state of a table carries the payload of its kind. -/
def RuleTable.StatesShaped (t : RuleTable) : Prop :=
  ∀ r ∈ t.rules, ∀ target kind payload, r.action = .setState target kind payload → kind.Shaped payload

theorem Action.shaped_of_loadable {a : Action} (loadable : a.Loadable)
    (states : ∀ target kind payload, a = .setState target kind payload → kind.Shaped payload) :
    a.Shaped := by
  cases a with
  | merge _ _ _ _ _ => exact loadable.2.2
  | setState target kind payload => exact states target kind payload rfl
  | summon | setBlock | raw => trivial

/-- A read table has its shapes when its entity states carry the payloads of their kinds: the
reader itself rounds every merge. -/
theorem Document.shaped_of_ofJson {raw : Value} {d : Document} (read : Document.ofJson raw = .ok d)
    (states : d.table.StatesShaped) : d.table.Shaped := fun r mem =>
  Action.shaped_of_loadable ((Document.loadable_of_ofJson read).rules r mem) (states r mem)

/-! ## Baked payloads -/

theorem numberArg_singleFinite {t : Source.Token} {x : Float} (read : Source.numberArg t = .ok x) :
    isSingleFinite x = true := by
  unfold Source.numberArg Source.numberIn at read
  split at read
  · cases read
  · split at read
    · cases read
      assumption
    · cases read

theorem Source.Words.statement_teleport {w : Source.Words} {e : String} {o : Geometry.Vec3}
    (read : w.statement = .ok (.teleport e o)) :
    Source.numberArg (w.arg 1) = .ok o.x ∧ Source.numberArg (w.arg 2) = .ok o.y ∧
      Source.numberArg (w.arg 3) = .ok o.z := by
  unfold Source.Words.statement at read
  split at read <;> simp only [bind_eq_ok, Source.failAt, pure, Except.pure, Except.ok.injEq,
    reduceCtorEq, exists_false, and_false] at read
  case h_11 =>
    obtain ⟨_, -, x, found₁, y, found₂, z, found₃, _, -, same⟩ := read
    cases same
    exact ⟨found₁, found₂, found₃⟩
  -- the object, spawn and block lines branch once more before their statement shows
  all_goals
    obtain ⟨_, -, read⟩ := read
    repeat' split at read
    all_goals simp only [bind_eq_ok, Except.ok.injEq, reduceCtorEq, exists_false, and_false] at read

/-- A teleport of a line moves by numbers finite in single precision. -/
def Source.Statement.FiniteMove : Source.Statement → Prop
  | .teleport _ o => ∀ x ∈ Baker.components o, isSingleFinite x = true
  | _ => True

theorem Source.readLine_finiteMove {path : String} {number : Int} {line : String}
    {s : Source.Statement} (read : Source.readLine path number line = .ok (some s)) : s.FiniteMove := by
  cases s with
  | teleport e o =>
    have checked := mapError_eq_ok.1 read
    unfold Source.checkLine at checked
    dsimp only at checked
    split at checked
    · split at checked <;> cases checked
    · split at checked
      · cases checked
      · rcases stated : Source.Words.statement ⟨_, _, _⟩ with _ | s'
        · rw [stated] at checked
          cases checked
        · rw [stated] at checked
          cases checked
          obtain ⟨fx, fy, fz⟩ := Source.Words.statement_teleport stated
          intro x mem
          simp only [Baker.components, List.mem_cons, List.not_mem_nil, or_false] at mem
          rcases mem with rfl | rfl | rfl
          · exact numberArg_singleFinite fx
          · exact numberArg_singleFinite fy
          · exact numberArg_singleFinite fz
  | _ => trivial

theorem Source.parseSource_finiteMove {source path : String} {P : Source.Program}
    (parsed : Source.parseSource source path = .ok P) : ∀ s ∈ P.statements, s.FiniteMove :=
  Source.parseSource_preserves (fun _ _ _ _ read => Source.readLine_finiteMove read) parsed

theorem isFinite_of_isSingleFinite {x : Float} (single : isSingleFinite x = true) :
    isFinite x = true := by
  obtain ⟨y, rounded, finite⟩ := (isSingleFinite_iff x).1 single
  unfold isFinite
  -- a double that is no finite number rounds to itself
  rcases shape : (Parts.ofFloat x).shape with _ | ⟨m, q⟩ | _ | _
  · rfl
  · rfl
  all_goals
    unfold toSingle at rounded
    simp only [shape] at rounded
    cases rounded
    simp [isFinite, shape] at finite

theorem toFloat_of_asNumber {v : Value} {n : Number} (number : v.asNumber? = some n) :
    v.toFloat = n.toFloat := by
  cases v <;> cases number <;> rfl

theorem Json.Value.FiniteNumber.toFloat {v : Value} (finite : v.FiniteNumber) :
    ∃ x, v.toFloat = .ok x ∧ isFinite x = true := by
  obtain ⟨n, x, number, converted, finite⟩ := finite
  exact ⟨x, by rw [toFloat_of_asNumber number, converted], finite⟩

theorem finiteNumber_float {x : Float} (finite : isFinite x = true) : (Value.float x).FiniteNumber :=
  ⟨.float x, x, rfl, rfl, finite⟩

/-- What a statement becomes has its shape, its merge values apart. -/
theorem Source.Statement.Becomes.shaped {o : String} {s : Source.Statement} {a : Action}
    (becomes : s.Becomes o a) (finite : s.FiniteMove)
    (merged : ∀ target channel values duration start, a = .merge target channel values duration start →
      ∀ v ∈ values, IsSingle v) : a.Shaped := by
  cases s with
  | objectName _ _ => exact becomes.elim
  | wait _ => exact becomes.elim
  | translate _ _ _ | rotate _ _ _ _ | scale _ _ _ =>
    obtain ⟨vs, rfl⟩ := becomes
    exact merged _ _ _ _ _ rfl
  | spawn | placeBlock | raw =>
    subst becomes
    trivial
  | item e i =>
    subst becomes
    rfl
  | text e t =>
    subst becomes
    rfl
  | block e blockId props =>
    subst becomes
    refine ⟨rfl, fun v found => Or.inr ?_⟩
    simp only [getField?, if_neg (by decide : ("id" : String) ≠ "properties"), reduceIte,
      Option.some.injEq] at found
    exact ⟨_, found.symm⟩
  | teleport e offset =>
    subst becomes
    have each : ∀ x ∈ Baker.components offset, isFinite x = true :=
      fun x mem => isFinite_of_isSingleFinite (finite x mem)
    refine ⟨.float offset.x, .float offset.y, .float offset.z, rfl, ?_, ?_, ?_⟩ <;>
      exact finiteNumber_float (each _ (by simp [Baker.components]))

/-- Every baked table has its shapes. -/
theorem compiled_shaped {source path : String} {P : Source.Program} {c : Compiled}
    (parsed : Source.parseSource source path = .ok P) (compiled : compileProgram P = .ok c) :
    c.document.table.Shaped := by
  have loadable := compileProgram_loadable (Source.parseSource_sound parsed) compiled
  obtain ⟨⟨o, a⟩, -, baking⟩ := bind_eq_ok.1 compiled
  obtain ⟨b, baked, done⟩ := bind_eq_ok.1 baking
  cases done
  obtain ⟨added, rules, placed⟩ := (Baker.bakeAll_run P.statements _ b baked).rules
  intro r mem
  have own := loadable.rules r mem
  change r ∈ b.rules.reverse at mem
  rw [rules, List.append_nil, List.reverse_reverse] at mem
  -- every rule is what a statement of the source becomes
  obtain ⟨e, listed, -, becomes⟩ := exists_of_forall₂ placed r mem
  have kept := mem_schedule (List.mem_filter.1 listed).1
  refine becomes.shaped (Source.parseSource_finiteMove parsed _ kept) ?_
  intro target channel values duration start merge
  rw [merge] at own
  exact own.2.2

/-! ## Moving entities -/

/-- A position of three doubles, as the world places entities. -/
def Placed (position : List Value) : Prop :=
  ∃ x y z : Float, position = [.float x, .float y, .float z]

/-- Every entity of the world stands at three doubles. -/
def World.Placed (w : World) : Prop :=
  ∀ e ∈ w.entities, Keyframes.Placed e.position

/-- A double moved by a number stays a double. -/
theorem float_plus {v : Value} {n : Number} {z : Float} (x : Float) (number : v.asNumber? = some n)
    (converted : n.toFloat = .ok z) : (Value.float x).plus v = .ok (.float (x + z)) := by
  have sum : Number.add (.float x) n = .ok (.float (x + z)) := by
    cases n with
    | int i =>
      simp only [Number.toFloat] at converted
      simp only [Number.add, Number.combine, Number.toFloat, converted, bind, Except.bind, pure,
        Except.pure]
    | float y =>
      cases converted
      rfl
  unfold Value.plus
  rw [number]
  simp only [Value.asNumber?, sum]
  rfl

theorem Entity.moved_placed {e : Entity} {payload : List (String × Value)}
    (placed : Keyframes.Placed e.position) (shaped : StateKind.position.Shaped payload) :
    ∃ e', e.moved payload = .ok e' ∧ e'.id = e.id ∧ Keyframes.Placed e'.position := by
  obtain ⟨dx, dy, dz, found, ⟨nx, x', numberX, convertedX, -⟩, ⟨ny, y', numberY, convertedY, -⟩,
    ⟨nz, z', numberZ, convertedZ, -⟩⟩ := shaped
  obtain ⟨x, y, z, standing⟩ := placed
  refine ⟨{ e with position := [.float (x + x'), .float (y + y'), .float (z + z')] }, ?_, rfl, _, _, _, rfl⟩
  unfold Entity.moved
  simp only [found, standing, unpackable, unpackTriple, float_plus x numberX convertedX,
    float_plus y numberY convertedY, float_plus z numberZ convertedZ, bind, Except.bind, pure,
    Except.pure]

theorem moveTagged_placed (tag : String) {payload : List (String × Value)}
    (shaped : StateKind.position.Shaped payload) :
    ∀ (entities : List Entity) (w : World), (∀ e ∈ entities, Keyframes.Placed e.position) →
      w.Placed → ∃ w', (moveTagged tag payload entities).run.run w = (.ok (), w') ∧ w'.Placed
  | [], w, _, placed => ⟨w, rfl, placed⟩
  | e :: rest, w, standing, placed => by
    have later := fun w' => moveTagged_placed tag shaped rest w'
      (fun f mem => standing f (List.mem_cons_of_mem e mem))
    simp only [moveTagged]
    split
    · obtain ⟨e', moved, same, at'⟩ := Entity.moved_placed (standing e List.mem_cons_self) shaped
      rw [moved]
      -- the moved entity replaces the one of its id, and every other entity stays
      refine later _ fun f mem => ?_
      obtain ⟨g, kept, rfl⟩ := List.mem_map.1 mem
      split
      · exact at'
      · exact placed g kept
    · exact later w placed

theorem withChannel_position (e : Entity) (channel : Channel) (values : List Float) (duration start : Ticks) :
    (e.withChannel channel values duration start).position = e.position := by
  cases channel <;> rfl

theorem updateTagged_placed {w : World} {tag : String} {f : Entity → Entity}
    (keeps : ∀ e, (f e).position = e.position) (placed : w.Placed) : (w.updateTagged tag f).Placed := by
  intro e mem
  obtain ⟨g, kept, rfl⟩ := List.mem_map.1 mem
  split
  · rw [keeps]
    exact placed g kept
  · exact placed g kept

/-- An action with its shape goes through in a world whose entities stand at three doubles, and
they still do after it. -/
theorem perform_placed {a : Action} {w : World} (shaped : a.Shaped) (placed : w.Placed) :
    ∃ w', (perform a).run.run w = (.ok (), w') ∧ w'.Placed := by
  cases a with
  | merge target channel values duration start =>
    exact ⟨_, rfl, updateTagged_placed (fun e => withChannel_position e _ _ _ _) placed⟩
  | summon kind tags anchor =>
    refine ⟨_, rfl, fun e mem => ?_⟩
    rcases List.mem_append.1 mem with old | fresh
    · exact placed e old
    · rw [List.mem_singleton.1 fresh]
      -- a summon stands where the first entity of its anchor stands, or at the origin
      cases anchor with
      | none => exact ⟨0.0, 0.0, 0.0, rfl⟩
      | some tag =>
        show Keyframes.Placed (((w.select tag).head?.map (·.position)).getD origin)
        cases found : (w.select tag).head? with
        | none => exact ⟨0.0, 0.0, 0.0, rfl⟩
        | some f => exact placed f (List.mem_filter.1 (List.mem_of_mem_head? found)).1
  | setState target kind payload =>
    -- the action is recorded first; a position then moves the tagged entities one by one, and any
    -- other state is stored on them
    cases kind with
    | position =>
      obtain ⟨w', moved, placed'⟩ := moveTagged_placed target shaped w.entities
        { w with calls := w.calls ++ [.setState target .position payload] } placed placed
      exact ⟨w', moved, placed'⟩
    | block | item | text => exact ⟨_, rfl, updateTagged_placed (fun _ => rfl) placed⟩
  | setBlock x y z blockId => exact ⟨_, rfl, placed⟩
  | raw command => exact ⟨_, rfl, placed⟩

/-! ## Ticking -/

namespace Play

/-- Every timer of the player is a number (a truth value counts), as playback keeps them. -/
def Player.Counting (p : Player) : Prop :=
  ∀ r ∈ p.registers, r.2.timer.asNumber?.isSome = true

/-- A player ready to tick: its entities stand at three doubles and its timers are numbers. -/
structure Player.Ready (p : Player) : Prop where
  placed : p.world.Placed
  counting : p.Counting

/-- A player that plays: ready, with registered tables whose actions have their shapes. -/
structure Player.Playable (p : Player) : Prop extends p.Ready where
  shaped : ∀ e ∈ p.tables, e.2.Shaped

theorem registersOf_counting {p : Player} (counting : p.Counting) (name : String) :
    (p.registersOf name).timer.asNumber?.isSome = true := by
  unfold Player.registersOf
  cases found : p.registers.find? (·.1 == name) with
  | none => rfl
  | some r => exact counting r (List.mem_of_find?_eq_some found)

theorem mem_assign {α : Type} {entries : List (String × α)} {key : String} {a : α}
    {e : String × α} (mem : e ∈ assign entries key a) : e ∈ entries ∨ e = (key, a) := by
  unfold assign at mem
  split at mem
  · obtain ⟨f, kept, rfl⟩ := List.mem_map.1 mem
    split
    · exact .inr rfl
    · exact .inl kept
  · rcases List.mem_append.1 mem with old | fresh
    · exact .inl old
    · exact .inr (List.mem_singleton.1 fresh)

theorem Player.Counting.assign {p : Player} (counting : p.Counting) (name : String) {r : Registers}
    (number : r.timer.asNumber?.isSome = true) :
    ({ p with registers := Play.assign p.registers name r } : Player).Counting := by
  intro e mem
  rcases mem_assign mem with old | rfl
  · exact counting e old
  · exact number

theorem touch_tables (p : Player) (name : String) : (p.touch name).tables = p.tables := by
  unfold Player.touch
  split <;> rfl

theorem Player.Ready.touch {p : Player} (ready : p.Ready) (name : String) : (p.touch name).Ready := by
  unfold Player.touch
  split
  · exact ready
  · refine ⟨ready.placed, fun e mem => ?_⟩
    rcases List.mem_append.1 mem with old | fresh
    · exact ready.counting e old
    · rw [List.mem_singleton.1 fresh]
      rfl

theorem mem_actionsAt {t : RuleTable} {o : Int} {a : Action} (mem : a ∈ t.actionsAt o) :
    ∃ r ∈ t.rules, r.action = a := by
  rw [RuleTable.actionsAt_eq_actionsOf] at mem
  unfold RuleTable.actionsOf at mem
  obtain ⟨r, kept, rfl⟩ := List.mem_map.1 mem
  exact ⟨r, (List.mem_filter.1 kept).1, rfl⟩

/-- A number can be looked up: the actions that fire at it are actions of the table. -/
theorem firing_shaped {t : RuleTable} {timer : Value} (shaped : t.Shaped)
    (number : timer.asNumber?.isSome = true) :
    ∃ fired, firing t timer = .ok fired ∧ ∀ a ∈ fired, a.Shaped := by
  have looked : ∃ fired, firing t timer = .ok fired ∧ ∀ a ∈ fired, ∃ r ∈ t.rules, r.action = a := by
    cases timer with
    | int _ | bool _ | float _ =>
      unfold firing
      dsimp only
      split
      · exact ⟨_, rfl, fun _ mem => mem_actionsAt mem⟩
      · exact ⟨[], rfl, fun _ mem => absurd mem List.not_mem_nil⟩
    | _ => cases number
  obtain ⟨fired, found, actions⟩ := looked
  refine ⟨fired, found, fun a mem => ?_⟩
  obtain ⟨r, kept, rfl⟩ := actions a mem
  exact shaped r kept

/-- A number goes up by one to a number. -/
theorem plus_one_number {v : Value} (number : v.asNumber?.isSome = true) :
    ∃ v', v.plus (.int 1) = .ok v' ∧ v'.asNumber?.isSome = true := by
  cases v with
  | int i => exact ⟨.int (i + 1), rfl, rfl⟩
  | bool b => exact ⟨_, rfl, rfl⟩
  | float x =>
    obtain ⟨one, converted⟩ : ∃ one, (Number.int 1).toFloat = .ok one := ⟨_, rfl⟩
    exact ⟨_, float_plus x rfl converted, rfl⟩
  | _ => cases number

/-- A number can be compared with the greatest offset and advanced. -/
theorem advance_number {r : Registers} (number : r.timer.asNumber?.isSome = true) (m : Ticks) :
    ∃ after reset, advance r m = .ok (after, reset) ∧ after.timer.asNumber?.isSome = true := by
  obtain ⟨c, compared⟩ : ∃ c, r.timer.compareInt m.toNat = some c := by
    cases h : r.timer with
    | int _ | bool _ | float _ => exact ⟨_, rfl⟩
    | _ => rw [h] at number; cases number
  obtain ⟨next, added, number'⟩ := plus_one_number number
  have reached_ok : ∃ b, reached r.timer m = .ok b := by
    unfold reached
    rw [compared]
    cases c <;> exact ⟨_, rfl⟩
  obtain ⟨b, hb⟩ := reached_ok
  unfold advance
  cases b with
  | true => exact ⟨⟨.int 0, .int 0⟩, true, by simp [hb, bind, Except.bind, pure, Except.pure], rfl⟩
  | false => exact ⟨{ r with timer := next }, false, by simp [hb, added, bind, Except.bind, pure,
      Except.pure], number'⟩

theorem performAll_placed : ∀ {acts : List Action} {w : World}, (∀ a ∈ acts, a.Shaped) → w.Placed →
    ∃ w', (performAll acts).run.run w = (.ok (), w') ∧ w'.Placed
  | [], w, _, placed => ⟨w, rfl, placed⟩
  | a :: rest, w, shaped, placed => by
    obtain ⟨w₁, first, placed₁⟩ := perform_placed (shaped a List.mem_cons_self) placed
    rw [performAll_cons_run, first]
    exact performAll_placed (fun b mem => shaped b (List.mem_cons_of_mem a mem)) placed₁

/-- A tick of a table whose actions have their shapes goes through from a ready player, and
leaves it ready with its tables. -/
theorem tick_plays (name : String) {t : RuleTable} (g : Value) {p : Player} (shaped : t.Shaped)
    (ready : p.Ready) :
    ∃ o p', (tick name t g).run.run p = (.ok o, p') ∧ p'.tables = p.tables ∧ p'.Ready := by
  have number := registersOf_counting ready.counting name
  obtain ⟨fired, looked, firedShaped⟩ := firing_shaped shaped number
  obtain ⟨w, performed, placed⟩ := performAll_placed firedShaped ready.placed
  obtain ⟨after, reset, advanced, number'⟩ := advance_number number t.maxOffset
  obtain ⟨events, ran⟩ := tick_run name t g p
  rw [looked] at ran
  dsimp only at ran
  rw [performed] at ran
  dsimp only at ran
  rw [advanced] at ran
  exact ⟨_, _, ran, rfl, placed, ready.counting.assign name number'⟩

theorem tickAll_plays (g : Value) : ∀ (ts : List (String × RuleTable)) {p : Player},
    (∀ e ∈ ts, e.2.Shaped) → p.Ready →
      ∃ os p', (tickAll g ts).run.run p = (.ok os, p') ∧ p'.tables = p.tables ∧ p'.Ready
  | [], p, _, ready => ⟨[], p, rfl, rfl, ready⟩
  | (name, t) :: rest, p, shaped, ready => by
    obtain ⟨o, p₁, first, tables₁, ready₁⟩ := tick_plays name g (shaped _ List.mem_cons_self) (ready.touch name)
    obtain ⟨os, p₂, later, tables₂, ready₂⟩ :=
      tickAll_plays g rest (fun e mem => shaped e (List.mem_cons_of_mem _ mem)) ready₁
    rw [tickAll_cons_run, first]
    dsimp only
    rw [later]
    exact ⟨o :: os, p₂, rfl, by rw [tables₂, tables₁, touch_tables], ready₂⟩

/-- A game tick goes through from a player that plays, and leaves it playing. -/
theorem step_plays {p : Player} (playable : p.Playable) :
    ∃ os p', step.run.run p = (.ok os, p') ∧ p'.Playable := by
  obtain ⟨events, started⟩ := step_run p
  obtain ⟨os, p', ran, tables, ready⟩ := tickAll_plays (.int (p.gameTick + 1)) p.tables
    (p := { p with gameTick := p.gameTick + 1, events }) playable.shaped
    ⟨playable.placed, playable.counting⟩
  rw [started, ran]
  exact ⟨os, p', rfl, { ready with shaped := by rw [tables]; exact playable.shaped }⟩

theorem run_plays : ∀ (n : Nat) {p : Player}, p.Playable →
    ∃ oss p', (run n).run.run p = (.ok oss, p') ∧ p'.Playable
  | 0, p, playable => ⟨[], p, rfl, playable⟩
  | n + 1, p, playable => by
    obtain ⟨os, p₁, first, playable₁⟩ := step_plays playable
    obtain ⟨oss, p₂, later, playable₂⟩ := run_plays n playable₁
    rw [run, bind_run, first]
    dsimp only
    rw [bind_run, later]
    exact ⟨os :: oss, p₂, rfl, playable₂⟩

/-- Registering a table whose actions have their shapes keeps a player playing. -/
theorem Player.Playable.register {p : Player} (playable : p.Playable) (name : String) {t : RuleTable}
    (shaped : t.Shaped) : (p.register name t).Playable := by
  have ready : ({ p with tables := assign p.tables name t } : Player).Ready :=
    ⟨playable.placed, playable.counting⟩
  refine { ready.touch name with shaped := ?_ }
  unfold Player.register
  rw [touch_tables]
  intro e mem
  rcases mem_assign mem with old | rfl
  · exact playable.shaped e old
  · exact shaped

end Play

/-! ## Rendering -/

/-- Every failure of a computation is single precision overflowing. -/
def OnlyOverflow {α : Type} (x : Except Fault α) : Prop :=
  ∀ f, x = .error f → f = .singleOverflow

theorem OnlyOverflow.ok {α : Type} (a : α) : OnlyOverflow (.ok a : Except Fault α) :=
  fun _ failed => nomatch failed

theorem OnlyOverflow.bind {α β : Type} {x : Except Fault α} {g : α → Except Fault β}
    (first : OnlyOverflow x) (next : ∀ a, x = .ok a → OnlyOverflow (g a)) :
    OnlyOverflow (x >>= g) := by
  intro f failed
  cases hx : x with
  | error e =>
    rw [hx] at failed
    cases failed
    exact first f hx
  | ok a =>
    rw [hx] at failed
    exact next a hx f failed

theorem OnlyOverflow.mapM {α β : Type} {g : α → Except Fault β} :
    ∀ {l : List α}, (∀ a ∈ l, OnlyOverflow (g a)) → OnlyOverflow (l.mapM g)
  | [], _ => OnlyOverflow.ok []
  | a :: rest, each => by
    rw [List.mapM_cons]
    exact (each a List.mem_cons_self).bind fun _ _ =>
      (OnlyOverflow.mapM fun b mem => each b (List.mem_cons_of_mem a mem)).bind fun _ _ =>
        OnlyOverflow.ok _

theorem toSingle_onlyOverflow (x : Float) : OnlyOverflow (toSingle x) := by
  intro f failed
  unfold toSingle at failed
  dsimp only at failed
  split at failed
  · split at failed <;> cases failed
    rfl
  · cases failed

theorem firstReadingBack_onlyOverflow (negative : Bool) (m : Nat) (q : Int) (value : Float) :
    ∀ ks, OnlyOverflow (Decimal.firstReadingBack negative m q value ks)
  | [] => OnlyOverflow.ok none
  | k :: ks => by
    rw [Decimal.firstReadingBack]
    refine (toSingle_onlyOverflow _).bind fun back _ => ?_
    split
    · exact OnlyOverflow.ok _
    · exact firstReadingBack_onlyOverflow negative m q value ks

/-- A finite double is written, or its reading back overflows. -/
theorem singleText_onlyOverflow {x : Float} (finite : isFinite x = true) :
    OnlyOverflow (Decimal.singleText x) := by
  unfold Decimal.singleText
  refine (toSingle_onlyOverflow x).bind fun v rounded => ?_
  have kept := toSingle_isFinite rounded finite
  unfold isFinite at kept
  dsimp only
  split
  · exact OnlyOverflow.ok _
  · rename_i shape
    rw [shape] at kept
    cases kept
  · rename_i shape
    rw [shape] at kept
    cases kept
  · refine (firstReadingBack_onlyOverflow _ _ _ _ _).bind fun found _ => ?_
    split <;> exact OnlyOverflow.ok _

theorem singleList_onlyOverflow {values : List Float} (single : ∀ v ∈ values, IsSingle v) :
    OnlyOverflow (singleList values) := by
  unfold singleList
  exact (OnlyOverflow.mapM fun v mem => singleText_onlyOverflow (single v mem).2).bind fun _ _ =>
    OnlyOverflow.ok _

theorem unpack_three {α β : Type} (read : α → Except Fault β) (x y z : α) :
    Geometry.unpack read 3 [x, y, z] =
      (read x >>= fun a => read y >>= fun b => read z >>= fun c => .ok [a, b, c]) := by
  simp [Geometry.unpack, List.mapM_cons]

/-- The command of an entity state with its payload is written, a position but for the overflow
of one of its numbers. -/
theorem stateCommand_onlyOverflow {kind : StateKind} {payload : List (String × Value)}
    (shaped : kind.Shaped payload) : OnlyOverflow (stateCommand kind payload) := by
  cases kind with
  | block =>
    obtain ⟨named, properties⟩ := shaped
    obtain ⟨id, found⟩ := Option.isSome_iff_exists.1 named
    have field : payloadField payload "id" = .ok id := by simp [payloadField, found]
    simp only [stateCommand, field, bind, Except.bind]
    -- properties that count as absent are left out; an object is written
    split
    · rename_i present
      cases stored : getField? payload "properties" with
      | none =>
        rw [stored] at present
        cases present
      | some v =>
        rw [stored] at present
        rcases properties v stored with absent | ⟨fields, rfl⟩
        · rw [Option.getD_some, absent] at present
          cases present
        · exact OnlyOverflow.ok _
    · exact OnlyOverflow.ok _
  | item =>
    obtain ⟨item, found⟩ := Option.isSome_iff_exists.1 shaped
    have field : payloadField payload "item" = .ok item := by simp [payloadField, found]
    simp only [stateCommand, field, bind, Except.bind]
    exact OnlyOverflow.ok _
  | text =>
    obtain ⟨text, found⟩ := Option.isSome_iff_exists.1 shaped
    obtain ⟨v, stored, read⟩ := Option.bind_eq_some_iff.1 found
    have field : payloadField payload "text" = .ok v := by simp [payloadField, stored]
    have component : ∃ s, textComponent v = .ok s := by
      cases v with
      | str s =>
        dsimp only [textComponent]
        split
        · split <;> exact ⟨_, rfl⟩
        · exact ⟨_, rfl⟩
      | loose cs =>
        dsimp only [textComponent]
        split
        · split <;> exact ⟨_, rfl⟩
        · exact ⟨_, rfl⟩
      | _ => cases read
    obtain ⟨s, written⟩ := component
    simp only [stateCommand, field, written, bind, Except.bind]
    exact OnlyOverflow.ok _
  | position =>
    obtain ⟨dx, dy, dz, found, fx, fy, fz⟩ := shaped
    have field : payloadField payload "offset" = .ok (.arr [dx, dy, dz]) := by simp [payloadField, found]
    obtain ⟨x, readX, finiteX⟩ := fx.toFloat
    obtain ⟨y, readY, finiteY⟩ := fy.toFloat
    obtain ⟨z, readZ, finiteZ⟩ := fz.toFloat
    simp only [stateCommand, field, ok_bind, Value.members, unpack_three, bind_assoc, readX, readY,
      readZ]
    exact (singleText_onlyOverflow finiteX).bind fun _ _ => (singleText_onlyOverflow finiteY).bind
      fun _ _ => (singleText_onlyOverflow finiteZ).bind fun _ _ => OnlyOverflow.ok _

theorem renderAction_onlyOverflow (timeline : String) (offset : Nat) {a : Action} (shaped : a.Shaped) :
    OnlyOverflow (renderAction timeline offset a) := by
  cases a with
  | merge target channel values duration start =>
    exact (singleList_onlyOverflow shaped).bind fun _ _ => OnlyOverflow.ok _
  | setState target kind payload =>
    exact (stateCommand_onlyOverflow shaped).bind fun _ _ => OnlyOverflow.ok _
  | summon | setBlock | raw => exact OnlyOverflow.ok _

theorem renderDocument_onlyOverflow {d : Document} (shaped : d.table.Shaped) :
    OnlyOverflow (renderDocument d) :=
  (OnlyOverflow.mapM fun r mem => renderAction_onlyOverflow d.name r.offset (shaped r mem)).bind
    fun _ _ => OnlyOverflow.ok _

/-! ## Documents that play -/

/-- A document read with the payloads its states document, or baked from a source, plays and
renders. Its table has its shapes. A tick of it goes through from any player whose entities stand
at three doubles and whose timers are numbers, and leaves it so. Registering it keeps a player
playing, and from a playing player a game tick and a run of game ticks go through and keep it
playing. Every rule, and the whole script, renders but for single precision overflowing. -/
theorem playable_documents (d : Document)
    (made : (∃ raw, Document.ofJson raw = .ok d ∧ d.table.StatesShaped) ∨
      ∃ source path P c, Source.parseSource source path = .ok P ∧ compileProgram P = .ok c ∧
        c.document = d) :
    d.table.Shaped ∧
      (∀ (p : Play.Player) (name : String) (g : Value), p.Ready →
        ∃ o p', (Play.tick name d.table g).run.run p = (.ok o, p') ∧ p'.Ready) ∧
      (∀ (p : Play.Player) (name : String), p.Playable → (p.register name d.table).Playable) ∧
      (∀ p : Play.Player, p.Playable → ∃ os p', Play.step.run.run p = (.ok os, p') ∧ p'.Playable) ∧
      (∀ (n : Nat) (p : Play.Player), p.Playable →
        ∃ oss p', (Play.run n).run.run p = (.ok oss, p') ∧ p'.Playable) ∧
      (∀ r ∈ d.table.rules, OnlyOverflow (renderAction d.name r.offset r.action)) ∧
      OnlyOverflow (renderDocument d) := by
  have shaped : d.table.Shaped := by
    rcases made with ⟨raw, read, states⟩ | ⟨source, path, P, c, parsed, compiled, rfl⟩
    · exact Document.shaped_of_ofJson read states
    · exact compiled_shaped parsed compiled
  refine ⟨shaped, fun p name g ready => ?_, fun p name playable => playable.register name shaped,
    fun p playable => Play.step_plays playable, fun n p playable => Play.run_plays n playable,
    fun r mem => renderAction_onlyOverflow d.name r.offset (shaped r mem),
    renderDocument_onlyOverflow shaped⟩
  obtain ⟨o, p', ran, -, ready'⟩ := Play.tick_plays name g shaped ready
  exact ⟨o, p', ran, ready'⟩

/-- A lamp whose bulb is spawned, given a block, a text, a move and an item, and scaled. -/
def lampSource : String :=
  "object lamp:glow\nspawn marker text_display bulb\nblock bulb redstone_lamp[lit=true]\n" ++
    "text bulb on\ntp bulb 0 0.5 0\nwait 2\nitem bulb torch\nscale bulb 2 2 2 4\n"

/-- The baked document of the lamp. -/
def lampDocument : Document :=
  ((compileProgram ((Source.parseSource lampSource "lamp.dspa").toOption.getD default)).toOption.getD
    default).document

theorem playable_lamp :
    (Source.parseSource lampSource "lamp.dspa").toBool = true ∧
      (compileProgram ((Source.parseSource lampSource "lamp.dspa").toOption.getD default)).toBool = true ∧
      lampDocument.table.Shaped ∧
      (∀ (p : Play.Player) (name : String) (g : Value), p.Ready →
        ∃ o p', (Play.tick name lampDocument.table g).run.run p = (.ok o, p') ∧ p'.Ready) ∧
      (∀ (p : Play.Player) (name : String), p.Playable → (p.register name lampDocument.table).Playable) ∧
      (∀ p : Play.Player, p.Playable → ∃ os p', Play.step.run.run p = (.ok os, p') ∧ p'.Playable) ∧
      (∀ (n : Nat) (p : Play.Player), p.Playable →
        ∃ oss p', (Play.run n).run.run p = (.ok oss, p') ∧ p'.Playable) ∧
      (∀ r ∈ lampDocument.table.rules, OnlyOverflow (renderAction lampDocument.name r.offset r.action)) ∧
      OnlyOverflow (renderDocument lampDocument) := by
  have parsed : (Source.parseSource lampSource "lamp.dspa").toBool = true := by decide +kernel
  have compiled : (compileProgram ((Source.parseSource lampSource "lamp.dspa").toOption.getD
      default)).toBool = true := by decide +kernel
  exact ⟨parsed, compiled, playable_documents lampDocument (Or.inr ⟨_, _, _, _,
    eq_ok_of_toBool default parsed, eq_ok_of_toBool default compiled, rfl⟩)⟩

/-- A table the reader takes, whose one rule moves the entities tagged `e` with no payload. -/
def offsetlessDocument : Value :=
  .obj [("timeline", .str "a"), ("end_offset", .int 3), ("rules", .arr [.obj [("offset", .int 0),
    ("action", .obj [("type", .str "set_entity_state"), ("target", .str "e"),
      ("state", .str "position")])]])]

/-- The reader takes a move without an offset. In a world whose one entity carries the tag and
stands at the origin, with no timer yet, a tick of its table fails, and so does a game tick of a
player that registered it; its script does not render either. -/
theorem offsetless_document_refused :
    (Document.ofJson offsetlessDocument).toBool = true ∧ Play.taggedPlayer.Ready ∧
      ((Play.tick "a" ((Document.ofJson offsetlessDocument).toOption.getD default).table
        (.int 0)).run.run Play.taggedPlayer).1.toBool = false ∧
      (Play.step.run.run (Play.taggedPlayer.register "a"
        ((Document.ofJson offsetlessDocument).toOption.getD default).table)).1.toBool = false ∧
      (renderDocument ((Document.ofJson offsetlessDocument).toOption.getD default)).toBool = false := by
  have ready : Play.taggedPlayer.Ready := by
    refine ⟨fun e mem => ?_, fun r mem => absurd mem List.not_mem_nil⟩
    rw [List.mem_singleton.1 mem]
    exact ⟨0.0, 0.0, 0.0, rfl⟩
  exact ⟨by decide +kernel, ready, by decide +kernel, by decide +kernel, by decide +kernel⟩

end Keyframes
