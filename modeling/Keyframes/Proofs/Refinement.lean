import Keyframes.Proofs.Timelines
import Keyframes.Proofs.Cycle

/-!
# The player refines its model

`Player.view` forgets the world and the events of a player and reads its registers by name; what
is left is a `Model`. Every operation on a player that goes through is the same operation on its
view (`play_exec`), and hands the world exactly the actions its ticks fired, in order. Game ticks
are where this takes work: the player ticks its timelines one after another, each seeing the
registers the ones before it left, while the model ticks all of them from the registers the game
tick started with. They agree because the names of the tables are distinct, which registering
keeps.

An operation that fails is another matter: the player keeps what it changed up to the failure.
A game tick stops at the first timeline whose tick fails, so the timelines after it are not
ticked at all (`refused_step_stops_later_timelines`).

Main statement: `playOps_refines`.
-/

namespace Keyframes.Play
open Keyframes.Json

/-! ## Operations on a player -/

/-- Carries out an operation on the player; gives the outcomes of the ticks it made. -/
def Op.play : Op → PlayM (List Outcome)
  | .register name t => do modify (·.register name t); pure []
  | .lookup name => do modify (·.touch name); pure []
  | .setTimer name v => do Play.setTimer name v; pure []
  | .setFlags name v => do Play.setFlags name v; pure []
  | .tick name g => do let o ← tickOne name g; pure [o]
  | .step => Play.step
  | .run n => do let steps ← Play.run n; pure steps.flatten

def playOps : List Op → PlayM (List Outcome)
  | [] => pure []
  | op :: rest => do
    let os ← op.play
    let os' ← playOps rest
    pure (os ++ os')

/-! ## The view of a player -/

def Player.view (p : Player) : Model :=
  ⟨p.gameTick, p.tables, p.registersOf⟩

theorem view_touch (p : Player) (name : String) : (p.touch name).view = p.view := by
  obtain ⟨tables, -, gameTick⟩ := touch_frame p name
  simp only [Player.view, tables, gameTick, Model.mk.injEq, true_and]
  funext y
  exact touch_registersOf p name y

theorem view_of_assign {p p' : Player} {name : String} {r : Registers}
    (assigned : p'.registers = assign p.registers name r) (tables : p'.tables = p.tables)
    (gameTick : p'.gameTick = p.gameTick) : p'.view = p.view.write name r := by
  simp only [Player.view, Model.write, tables, gameTick, Model.mk.injEq, true_and]
  funext y
  rw [registersOf_of_assign assigned, Function.update_apply]

/-- A write through `setTimer` or `setFlags`: the registers of the named timeline changed by
`f`, the timeline named first. -/
theorem view_rewrite (p : Player) (name : String) (f : Registers → Registers) :
    ((p.touch name).setRegisters name (f ((p.touch name).registersOf name))).view =
      p.view.write name (f (p.registersOf name)) := by
  have written : ((p.touch name).setRegisters name (f ((p.touch name).registersOf name))).view =
      (p.touch name).view.write name (f ((p.touch name).registersOf name)) :=
    view_of_assign rfl rfl rfl
  rw [written, view_touch, touch_registersOf]

/-! ## A game tick of the player -/

theorem mapM_tickRule_congr (regs regs' : String → Registers) :
    ∀ ts : List (String × RuleTable), (∀ e ∈ ts, regs e.1 = regs' e.1) →
      ts.mapM (fun e => tickRule e.1 e.2 (regs e.1)) = ts.mapM (fun e => tickRule e.1 e.2 (regs' e.1))
  | [], _ => rfl
  | e :: rest, same => by
      rw [List.mapM_cons, List.mapM_cons, same e List.mem_cons_self,
        mapM_tickRule_congr regs regs' rest (fun e' member => same e' (List.mem_cons_of_mem e member))]

theorem tickAll_cons_run (g : Value) (name : String) (t : RuleTable) (rest : List (String × RuleTable))
    (p : Player) :
    (tickAll g ((name, t) :: rest)).run.run p =
      match (tick name t g).run.run (p.touch name) with
      | (.ok o, p₁) => match (tickAll g rest).run.run p₁ with
        | (.ok os, p₂) => (.ok (o :: os), p₂)
        | (.error e, p₂) => (.error e, p₂)
      | (.error e, p₁) => (.error e, p₁) := by
  rw [tickAll, modify_bind_run, bind_run]
  rcases (tick name t g).run.run (p.touch name) with ⟨_ | o, p₁⟩
  · rfl
  · dsimp only
    rw [bind_run]
    rcases (tickAll g rest).run.run p₁ with ⟨_ | os, p₂⟩ <;> rfl

theorem tickAll_ok (g : Value) : ∀ (ts : List (String × RuleTable)) (p p' : Player) (os : List Outcome),
    (ts.map (·.1)).Nodup → (tickAll g ts).run.run p = (.ok os, p') →
    ∃ ticks, ts.mapM (fun e => tickRule e.1 e.2 (p.registersOf e.1)) = .ok ticks ∧
      os = ticks.map (·.1) ∧
      (performAll (os.flatMap (·.fired))).run.run p.world = (.ok (), p'.world) ∧
      (∀ y, p'.registersOf y = settle ticks p.registersOf y) ∧
      p'.tables = p.tables ∧ p'.gameTick = p.gameTick
  | [], p, p', os, _, ran => by
      cases ran
      exact ⟨[], rfl, rfl, rfl, fun _ => rfl, rfl, rfl⟩
  | (name, t) :: rest, p, p', os, distinct, ran => by
      rw [tickAll_cons_run] at ran
      rcases first : (tick name t g).run.run (p.touch name) with ⟨_ | o, p₁⟩
      · rw [first] at ran
        cases ran
      · rw [first] at ran
        dsimp only at ran
        rcases later : (tickAll g rest).run.run p₁ with ⟨_ | os', p₂⟩
        · rw [later] at ran
          cases ran
        · rw [later] at ran
          cases ran
          obtain ⟨after, events, ruled, world, shape⟩ := tick_ok first
          rw [touch_registersOf] at ruled
          have fresh : name ∉ rest.map (·.1) := (List.nodup_cons.1 distinct).1
          obtain ⟨ticks, mapped, outcomes, performed, settled, tables, gameTick⟩ :=
            tickAll_ok g rest p₁ p' os' (List.nodup_cons.1 distinct).2 later
          have registers₁ : ∀ y, p₁.registersOf y = if y = name then after else p.registersOf y := by
            intro y
            rw [registersOf_of_assign (p := p.touch name) (by rw [shape]), touch_registersOf]
          have unchanged : ∀ e ∈ rest, p₁.registersOf e.1 = p.registersOf e.1 := by
            intro e member
            have distinct : e.1 ≠ name := fun same => fresh (same ▸ List.mem_map_of_mem member)
            rw [registers₁, if_neg distinct]
          refine ⟨(o, after) :: ticks, ?_, ?_, ?_, ?_, ?_, ?_⟩
          · rw [List.mapM_cons, ruled, mapM_tickRule_congr p.registersOf p₁.registersOf rest
              (fun e member => (unchanged e member).symm), mapped]
            rfl
          · rw [outcomes]
            rfl
          · rw [(touch_frame p name).2.1] at world
            rw [List.flatMap_cons, performAll_append_run, world]
            dsimp only
            rw [shape] at performed
            exact performed
          · intro y
            rw [settled y]
            unfold settle
            rw [List.find?_cons]
            by_cases same : y = name
            · subst same
              have absent : ticks.find? (·.1.timeline == y) = none := by
                rw [List.find?_eq_none]
                intro tick member named
                have : tick.1.timeline ∈ rest.map (·.1) := by
                  rw [← mapM_tickRule_timelines p₁.registersOf rest ticks mapped]
                  exact List.mem_map_of_mem member
                exact fresh ((beq_iff_eq.1 named) ▸ this)
              rw [absent, tickRule_timeline ruled, registers₁, if_pos rfl]
              simp
            · have other : (o.timeline == y) = false := by
                rw [tickRule_timeline ruled]
                simpa using Ne.symm same
              rw [other, registers₁, if_neg same]
          · rw [tables, shape, (touch_frame p name).1]
          · rw [gameTick, shape, (touch_frame p name).2.2]

/-! ## Every operation -/

theorem step_run (p : Player) : ∃ events,
    step.run.run p =
      (tickAll (.int (p.gameTick + 1)) p.tables).run.run { p with gameTick := p.gameTick + 1, events } := by
  rw [step, modify_bind_run, get_bind_run, emit_bind_run]
  exact ⟨_, rfl⟩

theorem step_exec {p p' : Player} {os : List Outcome} (distinct : (p.tables.map (·.1)).Nodup)
    (ran : step.run.run p = (.ok os, p')) :
    p.view.step = .ok (os, p'.view) ∧ p'.world.calls = p.world.calls ++ os.flatMap (·.fired) := by
  obtain ⟨events, started⟩ := step_run p
  rw [started] at ran
  obtain ⟨ticks, mapped, outcomes, performed, settled, tables, gameTick⟩ :=
    tickAll_ok _ p.tables _ p' os distinct ran
  have viewed : p'.view = { p.view with gameTick := p.view.gameTick + 1, regs := settle ticks p.view.regs } := by
    simp only [Player.view, Model.mk.injEq]
    exact ⟨gameTick, tables, funext settled⟩
  refine ⟨?_, performAll_calls _ p.world p'.world performed⟩
  rw [Model.step_of_mapM mapped, outcomes, viewed]

theorem run_exec : ∀ (n : Nat) (p p' : Player) (oss : List (List Outcome)),
    (p.tables.map (·.1)).Nodup → (run n).run.run p = (.ok oss, p') →
    p.view.steps n = .ok (oss.flatten, p'.view) ∧
      p'.world.calls = p.world.calls ++ oss.flatten.flatMap (·.fired)
  | 0, p, p', oss, _, ran => by
    cases ran
    exact ⟨rfl, by simp⟩
  | n + 1, p, p', oss, distinct, ran => by
    rw [run, bind_run] at ran
    rcases first : step.run.run p with ⟨_ | os, p₁⟩
    · rw [first] at ran
      cases ran
    · rw [first] at ran
      dsimp only at ran
      rw [bind_run] at ran
      rcases later : (run n).run.run p₁ with ⟨_ | oss', p₂⟩
      · rw [later] at ran
        cases ran
      · rw [later] at ran
        cases ran
        obtain ⟨stepped, called⟩ := step_exec distinct first
        have kept : p₁.tables = p.tables := Model.step_tables stepped
        obtain ⟨rest, called'⟩ := run_exec n p₁ p' oss' (kept ▸ distinct) later
        refine ⟨?_, ?_⟩
        · rw [Model.steps, stepped, ok_bind]
          dsimp only
          rw [rest]
          rfl
        · rw [called', called, List.flatten_cons, List.flatMap_append, List.append_assoc]

theorem tickOne_run (name : String) (g : Value) (p : Player) :
    (tickOne name g).run.run p = match p.table? name with
      | some t => (tick name t g).run.run (p.touch name)
      | none => (.error (.missingKey (Text.quote name)), p.touch name) := by
  have found : (p.touch name).table? name = p.table? name := by
    unfold Player.table?
    rw [(touch_frame p name).1]
  rw [tickOne, modify_bind_run, get_bind_run, found]
  rcases p.table? name with _ | t <;> rfl


theorem world_touch_setRegisters (p : Player) (name : String) (r : Registers) :
    ((p.touch name).setRegisters name r).world = p.world :=
  (touch_frame p name).2.1

theorem play_exec {op : Op} {p p' : Player} {os : List Outcome} (distinct : (p.tables.map (·.1)).Nodup)
    (ran : op.play.run.run p = (.ok os, p')) :
    p.view.exec op = .ok (os, p'.view) ∧ p'.world.calls = p.world.calls ++ os.flatMap (·.fired) := by
  cases op with
  | register name t =>
    cases ran
    refine ⟨?_, by simp [Player.register, (touch_frame _ name).2.1]⟩
    show _ = Except.ok ([], (({ p with tables := assign p.tables name t } : Player).touch name).view)
    rw [view_touch]
    rfl
  | lookup name =>
    cases ran
    exact ⟨by rw [view_touch]; rfl, by simp [(touch_frame p name).2.1]⟩
  | setTimer name v =>
    cases ran
    have written := view_rewrite p name fun r => { r with timer := v }
    exact ⟨by rw [Model.exec]; exact congrArg _ (congrArg _ written.symm), by simp [world_touch_setRegisters]⟩
  | setFlags name v =>
    cases ran
    have written := view_rewrite p name fun r => { r with flags := v }
    exact ⟨by rw [Model.exec]; exact congrArg _ (congrArg _ written.symm), by simp [world_touch_setRegisters]⟩
  | tick name g =>
    rw [Op.play, bind_run, tickOne_run] at ran
    rcases found : p.table? name with _ | t
    · rw [found] at ran
      cases ran
    · rw [found] at ran
      dsimp only at ran
      rcases ticked : (tick name t g).run.run (p.touch name) with ⟨_ | o, p₁⟩
      · rw [ticked] at ran
        cases ran
      · rw [ticked] at ran
        cases ran
        -- The player ticks from the registers its lookup touched: the model's tick rule, with
        -- the fired actions handed to the world.
        obtain ⟨after, events, ruled, performed, shape⟩ := tick_ok ticked
        rw [touch_registersOf] at ruled
        have written : p'.view = p.view.write name after := by
          rw [← view_touch p name]
          exact view_of_assign (by rw [shape]) (by rw [shape]) (by rw [shape])
        refine ⟨?_, ?_⟩
        · have looked : p.view.table? name = some t := found
          rw [Model.exec, looked]
          dsimp only
          rw [show p.view.regs name = p.registersOf name from rfl, ruled, ok_bind, written]
          rfl
        · rw [performAll_calls _ _ _ performed, (touch_frame p name).2.1]
          simp
  | step => exact step_exec distinct ran
  | run n =>
    rw [Op.play, bind_run] at ran
    rcases played : (run n).run.run p with ⟨_ | oss, p₁⟩
    · rw [played] at ran
      cases ran
    · rw [played] at ran
      cases ran
      exact run_exec n p p' oss distinct played

theorem playOps_execAll : ∀ (ops : List Op) (p p' : Player) (os : List Outcome),
    (p.tables.map (·.1)).Nodup → (playOps ops).run.run p = (.ok os, p') →
    p.view.execAll ops = .ok (os, p'.view) ∧ p'.world.calls = p.world.calls ++ os.flatMap (·.fired)
  | [], p, p', os, _, ran => by
    cases ran
    exact ⟨rfl, by simp⟩
  | op :: rest, p, p', os, distinct, ran => by
    rw [playOps, bind_run] at ran
    rcases first : op.play.run.run p with ⟨_ | os₁, p₁⟩
    · rw [first] at ran
      cases ran
    · rw [first] at ran
      dsimp only at ran
      rw [bind_run] at ran
      rcases later : (playOps rest).run.run p₁ with ⟨_ | os₂, p₂⟩
      · rw [later] at ran
        cases ran
      · rw [later] at ran
        cases ran
        obtain ⟨done, called⟩ := play_exec distinct first
        obtain ⟨done', called'⟩ :=
          playOps_execAll rest p₁ p' os₂ (Model.exec_nodup done distinct) later
        refine ⟨?_, ?_⟩
        · rw [Model.execAll, done, ok_bind]
          dsimp only
          rw [done']
          rfl
        · rw [called', called, List.flatMap_append, List.append_assoc]

/-! ## Runs that go through -/

/-- What a run of operations that all succeed does to a player. -/
structure Refines (ops : List Op) (p p' : Player) (os : List Outcome) : Prop where
  /-- The player moves as its model does. -/
  model : p.view.execAll ops = .ok (os, p'.view)
  /-- The world is handed the actions that fired, in order, and nothing else. -/
  calls : p'.world.calls = p.world.calls ++ os.flatMap (·.fired)
  /-- Game ticks count the steps, a run of `n` counting `n`. -/
  gameTick : p'.gameTick = p.gameTick + (ops.map Op.gameTicks).sum
  /-- Each timeline moves as it would alone, under the operations that bear on it. -/
  alone : ∀ x, (p.view.only x).execAll (ops.filter (Op.reaches x)) =
    .ok (os.filter (·.timeline == x), p'.view.only x)

theorem playOps_refines (ops : List Op) (p p' : Player) (os : List Outcome)
    (distinct : (p.tables.map (·.1)).Nodup) (ran : (playOps ops).run.run p = (.ok os, p')) :
    Refines ops p p' os := by
  obtain ⟨model, calls⟩ := playOps_execAll ops p p' os distinct ran
  exact ⟨model, calls, Model.execAll_gameTick ops p.view p'.view os model,
    fun x => Model.execAll_only x ops p.view p'.view os model⟩


/-- Two timelines, one of them registered after its timer was written and ticked bare, then a
table replaced in place. -/
def demoOps : List Op :=
  [.register "a" ⟨[⟨0, .raw "say a"⟩], some (.num 1)⟩, .setTimer "b" (.int 2), .step,
    .register "b" ⟨[⟨2, .raw "say b"⟩], none⟩, .tick "a" (.int 0), .run 2,
    .register "a" ⟨[], some (.num 3)⟩, .step]

theorem playOps_refines_demo :
    ((playOps demoOps).run.run {}).1.toBool = true ∧ ([] : List String).Nodup ∧
      Refines demoOps {} ((playOps demoOps).run.run {}).2
        (((playOps demoOps).run.run {}).1.toOption.getD []) :=
  have succeeded : ((playOps demoOps).run.run {}).1.toBool = true := by decide +kernel
  ⟨succeeded, List.nodup_nil,
    playOps_refines demoOps {} _ _ List.nodup_nil (pair_eq_ok_of_toBool [] succeeded)⟩

/-- Timelines `a`, which moves the entities tagged `e` by a payload without an offset, and `b`,
which does nothing, registered in that order on a player with the world `w`. -/
def twoTimelines (w : World) : Player :=
  (({ world := w } : Player).register "a" offsetlessTable).register "b" ⟨[], some (.num 3)⟩

/-- A world holding an entity tagged `e` refuses the move of `a`, and the game tick stops there:
`b` is not ticked, where a world without the entity lets it reach one. What `b` does depends on
the world and on the timeline before it. -/
theorem refused_step_stops_later_timelines :
    (step.run.run (twoTimelines taggedPlayer.world)).1.toBool = false ∧
      (step.run.run (twoTimelines taggedPlayer.world)).2.registersOf "b" = ⟨.int 0, .int 0⟩ ∧
      (step.run.run (twoTimelines {})).1.toBool = true ∧
      (step.run.run (twoTimelines {})).2.registersOf "b" = ⟨.int 1, .int 0⟩ :=
  ⟨by decide, rfl, by decide, rfl⟩

end Keyframes.Play
