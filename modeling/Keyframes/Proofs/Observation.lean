import Keyframes.Proofs.Refinement
import Keyframes.Play.Trace

/-!
# Watching playback changes nothing

A player may record events or not, and a run may be traced or not; neither feeds back into
playback. `Oblivious x` says that running `x` gives the answer, and apart from the events the
player, that running it without recording gives (`Player.unobserved`). It holds of every
primitive the player is built from and is kept by `bind`, so it holds of a tick, a game tick and a
run of them.

Tracing plays through the same game ticks and only reads the player between them. What a trace
shows of a game tick is `Traced`: each registered timeline in order of registration, as its own
tick left it. The trace reads each timeline's flags after the whole game tick, by name; those are
the flags its own tick left because the names of the tables are distinct, so no later tick of the
game tick touches them.

Main statement: `observation_invisible`.
-/

namespace Keyframes.Play
open Keyframes.Json

/-- A player with what it recorded set aside and recording off: what playback sees of it. -/
def Player.unobserved (p : Player) : Player :=
  { p with events := [], recording := false }

/-- Running `x` from a player gives the answer, and apart from the events the player, that
running it from the same player without recording gives. -/
def Oblivious {α : Type} (x : PlayM α) : Prop :=
  ∀ p, x.run.run p.unobserved = ((x.run.run p).1, (x.run.run p).2.unobserved)

/-! ## Oblivious operations -/

theorem Oblivious.pure {α : Type} (a : α) : Oblivious (pure a : PlayM α) := fun _ => rfl

theorem Oblivious.bind {α β : Type} {x : PlayM α} {f : α → PlayM β} (first : Oblivious x)
    (rest : ∀ a, Oblivious (f a)) : Oblivious (x >>= f) := by
  intro p
  rw [bind_run, bind_run, first p]
  rcases x.run.run p with ⟨_ | a, p'⟩
  · rfl
  · exact rest a p'

/-- Reading the player is oblivious when what is done with it reads nothing that recording
changes. -/
theorem Oblivious.get_bind {α : Type} {f : Player → PlayM α} (rest : ∀ p, Oblivious (f p))
    (reads : ∀ p, f p.unobserved = f p) : Oblivious ((get : PlayM Player) >>= f) := by
  intro p
  rw [get_bind_run, get_bind_run, reads p]
  exact rest p p

theorem Oblivious.modify (g : Player → Player) (commutes : ∀ p, (g p).unobserved = g p.unobserved) :
    Oblivious (modify g : PlayM Unit) := fun p => by
  show (Except.ok (), g p.unobserved) = (Except.ok (), (g p).unobserved)
  rw [commutes]

theorem Oblivious.emit (es : List Event) : Oblivious (emit es) := by
  intro p
  obtain ⟨tables, registers, gameTick, world, events, recording⟩ := p
  cases recording <;> rfl

theorem Oblivious.settled {α : Type} (x : Except Fault α) : Oblivious (settled x) := by
  intro p
  cases x <;> rfl

theorem Oblivious.inWorld {α : Type} (m : WorldM α) : Oblivious (inWorld m) := by
  intro p
  rw [inWorld_run, inWorld_run]
  rfl

theorem touch_unobserved (p : Player) (name : String) : (p.touch name).unobserved = p.unobserved.touch name := by
  have same : p.unobserved.registers = p.registers := rfl
  unfold Player.touch
  rw [same]
  by_cases named : p.registers.any (·.1 == name)
  · rw [if_pos named, if_pos named]
  · rw [if_neg named, if_neg named]
    rfl

/-! ## Playback is oblivious -/

theorem Oblivious.fire (g : Value) (name : String) (timer : Value) :
    ∀ (seq : Nat) (acts : List Action), Oblivious (fire g name timer seq acts)
  | seq, [] => Oblivious.pure seq
  | seq, a :: rest => by
    rw [Play.fire]
    exact (Oblivious.inWorld _).bind fun _ => (Oblivious.emit _).bind fun _ =>
      Oblivious.fire g name timer (seq + 1) rest

theorem Oblivious.tick (name : String) (t : RuleTable) (g : Value) : Oblivious (tick name t g) := by
  unfold Play.tick
  -- The tick reads the timeline's registers twice; recording changes neither reading.
  refine Oblivious.get_bind (fun p => ?_) (fun p => rfl)
  refine (Oblivious.settled _).bind fun fired => ?_
  refine (Oblivious.fire _ _ _ _ _).bind fun seq => ?_
  refine Oblivious.get_bind (fun p' => ?_) (fun p' => rfl)
  refine (Oblivious.settled _).bind fun advanced => ?_
  obtain ⟨after, reset⟩ := advanced
  dsimp only
  exact (Oblivious.modify (·.setRegisters name after) fun _ => rfl).bind fun _ =>
    (Oblivious.emit _).bind fun _ => Oblivious.pure _

theorem Oblivious.tickAll (g : Value) : ∀ ts : List (String × RuleTable), Oblivious (tickAll g ts)
  | [] => Oblivious.pure []
  | (name, t) :: rest => by
    rw [Play.tickAll]
    exact (Oblivious.modify (·.touch name) fun p => touch_unobserved p name).bind fun _ =>
      (Oblivious.tick name t g).bind fun _ => (Oblivious.tickAll g rest).bind fun _ => Oblivious.pure _

theorem Oblivious.step : Oblivious step := by
  unfold Play.step
  refine (Oblivious.modify (fun p => { p with gameTick := p.gameTick + 1 }) fun _ => rfl).bind fun _ => ?_
  exact Oblivious.get_bind (fun p => (Oblivious.emit _).bind fun _ => Oblivious.tickAll _ _) fun _ => rfl

theorem Oblivious.run : ∀ n : Nat, Oblivious (run n)
  | 0 => Oblivious.pure []
  | n + 1 => by
    rw [Play.run]
    exact Oblivious.step.bind fun _ => (Oblivious.run n).bind fun _ => Oblivious.pure _

theorem Oblivious.runTraced : ∀ n : Nat, Oblivious (runTraced n)
  | 0 => Oblivious.pure []
  | n + 1 => by
    rw [Play.runTraced]
    -- Between game ticks the trace reads the game tick count and the registers only.
    exact Oblivious.step.bind fun _ => Oblivious.get_bind
      (fun _ => (Oblivious.runTraced n).bind fun _ => Oblivious.pure _) fun _ => rfl

/-- Playing with recording on or off, whatever was recorded before, gives the same answers and
the same player apart from the events. -/
theorem Oblivious.unobserved {α : Type} {x : PlayM α} (oblivious : Oblivious x) (p : Player)
    (recording : Bool) (events : List Event) :
    (x.run.run { p with recording, events }).1 = (x.run.run p).1 ∧
      (x.run.run { p with recording, events }).2.unobserved = (x.run.run p).2.unobserved := by
  have same : ({ p with recording, events } : Player).unobserved = p.unobserved := rfl
  have left := oblivious { p with recording, events }
  have right := oblivious p
  rw [same, right] at left
  exact ⟨(Prod.mk.inj left).1.symm, (Prod.mk.inj left).2.symm⟩

/-! ## Tracing plays as playing does -/

/-- Tracing a run plays the same game ticks and ends with the same player: it fails where the
run fails, with the same fault, and otherwise goes through with it. -/
theorem runTraced_same : ∀ (n : Nat) (p : Player),
    ((runTraced n).run.run p).2 = ((run n).run.run p).2 ∧
      ((runTraced n).run.run p).1.map (fun _ => ()) = ((run n).run.run p).1.map (fun _ => ())
  | 0, p => ⟨rfl, rfl⟩
  | n + 1, p => by
    rw [runTraced, run, bind_run, bind_run]
    rcases step.run.run p with ⟨_ | os, p₁⟩
    · exact ⟨rfl, rfl⟩
    · dsimp only
      rw [get_bind_run, bind_run, bind_run]
      obtain ⟨state, answer⟩ := runTraced_same n p₁
      rcases traced : (runTraced n).run.run p₁ with ⟨_ | traces, p₂⟩ <;>
        rcases played : (run n).run.run p₁ with ⟨_ | oss, p₃⟩ <;>
        rw [traced, played] at state answer <;> cases state
      · cases answer
        exact ⟨rfl, rfl⟩
      · cases answer
      · cases answer
      · exact ⟨rfl, rfl⟩

/-! ## What a trace shows -/

/-- A timeline's line of a traced game tick: the outcome of its tick and the flags it left. -/
def TimelineTrace.of (o : Outcome) (flags : Value) : TimelineTrace :=
  { name := o.timeline, timerBefore := o.timerBefore, timerAfter := o.timerAfter, flagsAfter := flags,
    fired := o.fired.map (·.describe), reset := o.reset }

theorem snapshot_eq (p : Player) (os : List Outcome) :
    snapshot p os = ⟨p.gameTick, os.map fun o => .of o (p.registersOf o.timeline).flags⟩ :=
  rfl

/-- What tracing game ticks of a model shows, against the outcomes of the same game ticks: for
each game tick its number, and each registered timeline in order of registration as the tick rule
took it from the registers the game tick started with, with the flags its own tick left. -/
inductive Traced : Model → List TickTrace → List (List Outcome) → Prop
  | nil (m : Model) : Traced m [] []
  | cons {m : Model} {ticks : List (Outcome × Registers)} {traces : List TickTrace}
      {oss : List (List Outcome)}
      (ruled : m.tables.mapM (fun e => tickRule e.1 e.2 (m.regs e.1)) = .ok ticks)
      (rest : Traced { m with gameTick := m.gameTick + 1, regs := settle ticks m.regs } traces oss) :
      Traced m (⟨m.gameTick + 1, ticks.map fun x => .of x.1 x.2.flags⟩ :: traces) (ticks.map (·.1) :: oss)

/-- The traces of a run number the game ticks on from the model's count. -/
theorem Traced.ticks {m : Model} {traces : List TickTrace} {oss : List (List Outcome)}
    (traced : Traced m traces oss) :
    traces.map (·.tick) = (List.range traces.length).map (m.gameTick + · + 1) := by
  induction traced with
  | nil => rfl
  | cons ruled rest later =>
    rw [List.map_cons, later, List.length_cons, List.range_succ_eq_map, List.map_cons, List.map_map]
    congr 1
    apply List.map_congr_left
    intro i _
    simp only [Function.comp]
    omega

/-- Among ticks of distinct timelines, the registers a timeline ends with are those its own tick
left. -/
theorem settle_self (regs : String → Registers) :
    ∀ (ticks : List (Outcome × Registers)), (ticks.map (·.1.timeline)).Nodup →
      ∀ x ∈ ticks, settle ticks regs x.1.timeline = x.2
  | [], _, x, member => by simp at member
  | y :: rest, distinct, x, member => by
    unfold settle
    rw [List.find?_cons]
    rcases List.mem_cons.1 member with rfl | later
    · simp
    · have other : (y.1.timeline == x.1.timeline) = false := by
        have fresh : y.1.timeline ∉ rest.map (·.1.timeline) := (List.nodup_cons.1 distinct).1
        simp only [beq_eq_false_iff_ne]
        intro same
        exact fresh (List.mem_map.2 ⟨x, later, same.symm⟩)
      rw [other]
      exact settle_self regs rest (List.nodup_cons.1 distinct).2 x later

/-- A traced game tick that went through: the model's game tick, and the trace of its ticks with
the flags each left. -/
theorem step_traced {p p' : Player} {os : List Outcome} (distinct : (p.tables.map (·.1)).Nodup)
    (ran : step.run.run p = (.ok os, p')) :
    ∃ ticks, p.view.tables.mapM (fun e => tickRule e.1 e.2 (p.view.regs e.1)) = .ok ticks ∧
      os = ticks.map (·.1) ∧
      p'.view = { p.view with gameTick := p.view.gameTick + 1, regs := settle ticks p.view.regs } ∧
      snapshot p' os = ⟨p.gameTick + 1, ticks.map fun x => .of x.1 x.2.flags⟩ := by
  obtain ⟨events, started⟩ := step_run p
  rw [started] at ran
  obtain ⟨ticks, mapped, outcomes, -, settled, tables, gameTick⟩ :=
    tickAll_ok _ p.tables _ p' os distinct ran
  have timelines : (ticks.map (·.1.timeline)).Nodup := by
    rw [mapM_tickRule_timelines _ p.tables ticks mapped]
    exact distinct
  refine ⟨ticks, mapped, outcomes, ?_, ?_⟩
  · simp only [Player.view, Model.mk.injEq]
    exact ⟨gameTick, tables, funext settled⟩
  · rw [snapshot_eq, outcomes, List.map_map, gameTick]
    congr 1
    apply List.map_congr_left
    intro x member
    -- The trace reads the flags after the whole game tick; no later tick touched them.
    simp only [Function.comp, settled, settle_self _ ticks timelines x member]

theorem runTraced_traced : ∀ (n : Nat) (p p' : Player) (traces : List TickTrace),
    (p.tables.map (·.1)).Nodup → (runTraced n).run.run p = (.ok traces, p') →
    ∃ oss, ((run n).run.run p).1 = .ok oss ∧ Traced p.view traces oss
  | 0, p, p', traces, _, ran => by
    cases ran
    exact ⟨[], rfl, .nil _⟩
  | n + 1, p, p', traces, distinct, ran => by
    rw [runTraced, bind_run] at ran
    rcases first : step.run.run p with ⟨_ | os, p₁⟩
    · rw [first] at ran
      cases ran
    · rw [first] at ran
      dsimp only at ran
      rw [get_bind_run, bind_run] at ran
      rcases later : (runTraced n).run.run p₁ with ⟨_ | traces', p₂⟩
      · rw [later] at ran
        cases ran
      · rw [later] at ran
        cases ran
        obtain ⟨ticks, ruled, outcomes, viewed, snapped⟩ := step_traced distinct first
        have kept : (p₁.tables.map (·.1)).Nodup := by
          have same : p₁.tables = p.tables := congrArg Model.tables viewed
          rw [same]
          exact distinct
        obtain ⟨oss, played, traced⟩ := runTraced_traced n p₁ _ traces' kept later
        refine ⟨os :: oss, ?_, ?_⟩
        · rw [run, bind_run, first]
          dsimp only
          rw [bind_run]
          rcases rest : (run n).run.run p₁ with ⟨_ | oss', p₃⟩
          · rw [rest] at played
            cases played
          · rw [rest] at played
            cases played
            rfl
        · rw [snapped, outcomes]
          exact .cons ruled (viewed ▸ traced)

/-- Recording events or not, and tracing or not, changes nothing of playback: a run of `n` game
ticks gives the same answers and ends with the same player, the events apart, whether the player
records or not and whatever it recorded before; tracing the run plays the same game ticks, fails
where the run fails and ends with the same player. A trace that goes through shows, for the `i`-th
game tick, the game tick count it reached and each registered timeline in order of registration:
the outcome of its tick in that game tick and the flags that tick left (`Traced`). -/
theorem observation_invisible (n : Nat) (p : Player) (distinct : (p.tables.map (·.1)).Nodup) :
    (∀ (recording : Bool) (events : List Event),
      ((run n).run.run { p with recording, events }).1 = ((run n).run.run p).1 ∧
        ((run n).run.run { p with recording, events }).2.unobserved = ((run n).run.run p).2.unobserved) ∧
      ((runTraced n).run.run p).2 = ((run n).run.run p).2 ∧
      ((runTraced n).run.run p).1.map (fun _ => ()) = ((run n).run.run p).1.map (fun _ => ()) ∧
      ∀ traces, ((runTraced n).run.run p).1 = .ok traces →
        ∃ oss, ((run n).run.run p).1 = .ok oss ∧ Traced p.view traces oss ∧
          traces.map (·.tick) = (List.range traces.length).map (p.gameTick + · + 1) := by
  obtain ⟨state, answer⟩ := runTraced_same n p
  refine ⟨(Oblivious.run n).unobserved p, state, answer, fun traces went => ?_⟩
  obtain ⟨oss, played, traced⟩ :=
    runTraced_traced n p _ traces distinct (by rw [← went]; rfl)
  exact ⟨oss, played, traced, traced.ticks⟩

/-- Timelines `a`, firing at zero in a cycle of two ticks, and `b`, registered after it. -/
def tracedPlayer : Player :=
  (({} : Player).register "a" ⟨[⟨0, .raw "say a"⟩], some (.num 1)⟩).register "b" ⟨[⟨1, .raw "say b"⟩], none⟩

theorem observation_invisible_three :
    (tracedPlayer.tables.map (·.1)).Nodup ∧
      (∀ (recording : Bool) (events : List Event),
        ((run 3).run.run { tracedPlayer with recording, events }).1 = ((run 3).run.run tracedPlayer).1 ∧
          ((run 3).run.run { tracedPlayer with recording, events }).2.unobserved =
            ((run 3).run.run tracedPlayer).2.unobserved) ∧
      ((runTraced 3).run.run tracedPlayer).2 = ((run 3).run.run tracedPlayer).2 ∧
      ((runTraced 3).run.run tracedPlayer).1.map (fun _ => ()) = ((run 3).run.run tracedPlayer).1.map (fun _ => ()) ∧
      ∀ traces, ((runTraced 3).run.run tracedPlayer).1 = .ok traces →
        ∃ oss, ((run 3).run.run tracedPlayer).1 = .ok oss ∧ Traced tracedPlayer.view traces oss ∧
          traces.map (·.tick) = (List.range traces.length).map (tracedPlayer.gameTick + · + 1) :=
  have distinct : (tracedPlayer.tables.map (·.1)).Nodup := by decide
  ⟨distinct, observation_invisible 3 tracedPlayer distinct⟩

end Keyframes.Play
