import Keyframes.Proofs.EventStream
import Keyframes.Proofs.Footprint

/-!
# A game tick interrupted by the world

When the world refuses an action, the game tick stops where it is and keeps what it did. This
module pins that partial state down. A game tick that stops at an action fired by a registered
timeline has counted itself and recorded its start; the timelines before that one have ticked as
in a game tick that goes through, their actions carried out and their events recorded; that
timeline and the ones after it keep their registers; the world has carried out the actions fired
before the refused one and recorded the refused one; and that timeline has recorded the rules
fired before the refused one, and nothing else.

The refused action need not leave the entities as they were. Only a position state can fail in
the world (`perform_error`), and it fails at one entity after moving the tagged entities before it
(`moveTagged_error`). Two entities tagged alike, one at an integer position and one at a
fractional one, moved by an integer too large for a double, show it: the first moves and the
second stops the move (`refused_move_keeps_earlier_moves`).

Main statement: `interrupted_step`.
-/

namespace Keyframes.Play
open Keyframes.Json

/-! ## What the world refuses -/

/-- A position state that fails has moved the tagged entities before the first one it cannot
move, and left that one and those after it as they were. -/
theorem moveTagged_error (tag : String) (payload : List (String × Value)) :
    ∀ (es before : List Entity) (w w' : World) (err : Fault), w.entities = before ++ es →
      ((before ++ es).map (·.id)).Nodup → (moveTagged tag payload es).run.run w = (.error err, w') →
      ∃ moved f rest moved', es = moved ++ f :: rest ∧ f.hasTag tag = true ∧
        f.moved payload = .error err ∧ Tagged tag (Entity.Moved payload) moved moved' ∧
        w' = { w with entities := before ++ moved' ++ f :: rest }
  | [], _, _, _, _, _, _, refused => by cases refused
  | e :: rest, before, w, w', err, standing, distinct, refused => by
    simp only [moveTagged] at refused
    split at refused
    · rename_i tagged
      cases moved : e.moved payload with
      | error err' =>
        -- `e` is the entity that stops the move
        simp only [moved, moveTagged.liftExcept] at refused
        cases refused
        refine ⟨[], e, rest, [], rfl, tagged, moved, List.Forall₂.nil, ?_⟩
        rw [List.append_nil, ← standing]
      | ok m =>
        simp only [moved, moveTagged.liftExcept] at refused
        have replaced : w.entities.map (fun f => if f.id == e.id then m else f) =
            (before ++ [m]) ++ rest := by
          rw [standing, map_replace_of_nodup distinct, List.append_assoc, List.singleton_append]
        have distinct' : (((before ++ [m]) ++ rest).map (·.id)).Nodup := by
          simpa [Entity.moved_id moved] using distinct
        obtain ⟨done, f, rest', done', rfl, stops, fails, later, rfl⟩ :=
          moveTagged_error tag payload rest (before ++ [m]) _ w' err replaced distinct' refused
        refine ⟨e :: done, f, rest', m :: done', rfl, stops, fails, List.Forall₂.cons ?_ later,
          by simp⟩
        rw [if_pos tagged]
        exact Entity.moved_spec moved
    · rename_i untagged
      obtain ⟨done, f, rest', done', rfl, stops, fails, later, rfl⟩ :=
        moveTagged_error tag payload rest (before ++ [e]) w w' err (by simp [standing])
          (by simpa using distinct) refused
      refine ⟨e :: done, f, rest', e :: done', rfl, stops, fails, List.Forall₂.cons ?_ later,
        by simp⟩
      rw [if_neg untagged]

/-- Only a position state can fail in the world. It has recorded itself, and moved the entities
carrying its tag that come before the first one it cannot move. -/
theorem perform_error {a : Action} {w w' : World} {err : Fault} (numbered : w.Numbered)
    (refused : (perform a).run.run w = (.error err, w')) :
    ∃ target payload moved f rest moved', a = .setState target .position payload ∧
      w.entities = moved ++ f :: rest ∧ f.hasTag target = true ∧ f.moved payload = .error err ∧
      Tagged target (Entity.Moved payload) moved moved' ∧
      w' = { w with calls := w.calls ++ [a], entities := moved' ++ f :: rest } := by
  cases a with
  | setState target kind payload =>
    by_cases position : kind = .position
    · subst position
      rw [perform_position_run] at refused
      obtain ⟨moved, f, rest, moved', split, stops, fails, tagged, rfl⟩ :=
        moveTagged_error target payload w.entities []
          { w with calls := w.calls ++ [.setState target .position payload] } w' err rfl
          numbered.nodup refused
      refine ⟨target, payload, moved, f, rest, moved', rfl, split, stops, fails, tagged, ?_⟩
      rw [List.nil_append]
    · rw [perform_setState_run position] at refused
      cases refused
  | merge | summon | setBlock | raw => cases refused

theorem performAll_numbered : ∀ {acts : List Action} {w w' : World} {r : Except Fault Unit},
    (performAll acts).run.run w = (r, w') → w.Numbered → w'.Numbered
  | [], _, _, _, ran, numbered => by
    cases ran
    exact numbered
  | a :: rest, w, w', r, ran, numbered => by
    have first := perform_numbered a numbered
    rw [performAll_cons_run] at ran
    rcases step : (perform a).run.run w with ⟨_ | _, w₁⟩
    · rw [step] at ran first
      cases ran
      exact first
    · rw [step] at ran first
      exact performAll_numbered ran first

/-! ## A refused action stops the tick -/

section Refused

variable {g : Value} {name : String} {timer : Value} {a : Action} {later : List Action}
  {w₁ w₂ : World} {err : Fault}

/-- Firing stops at an action the world refuses, in the world that action left, with only the
actions before it recorded. -/
theorem fire_refused (refused : (perform a).run.run w₁ = (.error err, w₂)) :
    ∀ (done : List Action) (seq : Nat) (p : Player),
      (performAll done).run.run p.world = (.ok (), w₁) →
      (fire g name timer seq (done ++ a :: later)).run.run p =
        (.error err,
          { p with world := w₂,
                   events := p.events ++
                     (if p.recording then stamp g (some name) seq (firedFacts timer done) else []) })
  | [], seq, p, applied => by
    cases applied
    rw [List.nil_append, fire, bind_run, inWorld_run, refused]
    simp [stamp, firedFacts]
  | d :: done, seq, p, applied => by
    rw [performAll_cons_run] at applied
    rcases first : (perform d).run.run p.world with ⟨_ | _, w⟩
    · rw [first] at applied
      cases applied
    · rw [first] at applied
      let recorded : Player :=
        { p with world := w,
                 events := if p.recording
                   then p.events ++ [⟨g, some name, seq + 1, .ruleFired timer d.describe⟩]
                   else p.events }
      have carried : (fire g name timer seq (d :: (done ++ a :: later))).run.run p =
          (fire g name timer (seq + 1) (done ++ a :: later)).run.run recorded := by
        rw [fire, bind_run, inWorld_run, first]
        dsimp only
        rw [emit_bind_run]
      rw [List.cons_append, carried, fire_refused refused done (seq + 1) recorded applied]
      cases recording : p.recording <;> simp [recorded, recording, stamp, firedFacts]

/-- A tick stops at a fired action the world refuses: the registers stay, the world is as that
action left it, and only the rules fired before it are recorded. -/
theorem tick_refused {t : RuleTable} {p : Player} {done : List Action}
    (fired : firing t (p.registersOf name).timer = .ok (done ++ a :: later))
    (applied : (performAll done).run.run p.world = (.ok (), w₁))
    (refused : (perform a).run.run w₁ = (.error err, w₂)) :
    (tick name t g).run.run p =
      (.error err,
        { p with world := w₂,
                 events := p.events ++ (if p.recording
                   then numberFacts g name (firedFacts (p.registersOf name).timer done) else []) }) := by
  rw [tick, get_bind_run, settled_bind_run, fired]
  dsimp only
  rw [bind_run, fire_refused refused done 0 p applied, stamp_zero]

end Refused

/-! ## Timelines that tick through -/

theorem tick_through {name : String} {t : RuleTable} {g : Value} {p : Player} {o : Outcome}
    {after : Registers} {w : World} (ruled : tickRule name t (p.registersOf name) = .ok (o, after))
    (performed : (performAll o.fired).run.run p.world = (.ok (), w)) :
    ∃ events, (tick name t g).run.run p =
      (.ok o, { p with world := w, events, registers := assign p.registers name after }) := by
  obtain ⟨events, run⟩ := tick_run name t g p
  unfold tickRule at ruled
  rcases looked : firing t (p.registersOf name).timer with e | fired
  · rw [looked] at ruled
    cases ruled
  · rcases advanced : advance (p.registersOf name) t.maxOffset with e | ⟨after', reset⟩
    · rw [looked, advanced] at ruled
      cases ruled
    · rw [looked, advanced] at ruled
      cases ruled
      rw [looked] at run
      dsimp only at run
      rw [performed] at run
      dsimp only at run
      rw [advanced] at run
      exact ⟨events, run⟩

theorem tickAll_through (g : Value) : ∀ (ts : List (String × RuleTable)) (p : Player)
    {ticks : List (Outcome × Registers)} {w : World}, (ts.map (·.1)).Nodup →
    ts.mapM (fun e => tickRule e.1 e.2 (p.registersOf e.1)) = .ok ticks →
    (performAll (ticks.flatMap (·.1.fired))).run.run p.world = (.ok (), w) →
    ∃ os p', (tickAll g ts).run.run p = (.ok os, p')
  | [], p, _, _, _, _, _ => ⟨[], p, rfl⟩
  | (name, t) :: rest, p, ticks, w, distinct, mapped, performed => by
    rw [List.mapM_cons] at mapped
    obtain ⟨⟨o, after⟩, ruled, mapped⟩ := bind_eq_ok.1 mapped
    obtain ⟨later, mappedRest, ⟨⟩⟩ := bind_eq_ok.1 mapped
    rw [List.flatMap_cons, performAll_append_run] at performed
    rcases first : (performAll o.fired).run.run p.world with ⟨_ | _, w₁⟩
    · rw [first] at performed
      cases performed
    · rw [first] at performed
      have touched : (p.touch name).registersOf name = p.registersOf name :=
        touch_registersOf p name name
      obtain ⟨events, ticked⟩ := tick_through (g := g) (touched ▸ ruled)
        (by rw [(touch_frame p name).2.1]; exact first)
      -- the tick of `name` leaves the registers of the later timelines as they were
      have fresh : name ∉ rest.map (·.1) := (List.nodup_cons.1 distinct).1
      let p₁ : Player :=
        { p.touch name with world := w₁, events,
                            registers := assign (p.touch name).registers name after }
      have unchanged : ∀ e ∈ rest, p₁.registersOf e.1 = p.registersOf e.1 := by
        intro e member
        have other : e.1 ≠ name := fun same => fresh (same ▸ List.mem_map_of_mem member)
        rw [registersOf_of_assign (p := p.touch name) rfl, if_neg other, touch_registersOf]
      have mappedRest' := mapM_tickRule_congr p.registersOf p₁.registersOf rest
        (fun e member => (unchanged e member).symm) ▸ mappedRest
      obtain ⟨os, p₂, rested⟩ :=
        tickAll_through g rest p₁ (List.nodup_cons.1 distinct).2 mappedRest' performed
      refine ⟨o :: os, p₂, ?_⟩
      rw [tickAll_cons_run, ticked]
      dsimp only
      rw [rested]

/-- Timelines that tick through do so as in a game tick that goes through: the outcomes of their
tick rules, the world their fired actions leave, the registers their ticks set and their events. -/
theorem tickAll_completes {g : Nat} {ts : List (String × RuleTable)} {p : Player}
    {ticks : List (Outcome × Registers)} {w : World} (distinct : (ts.map (·.1)).Nodup)
    (ruled : ts.mapM (fun e => tickRule e.1 e.2 (p.registersOf e.1)) = .ok ticks)
    (performed : (performAll (ticks.flatMap (·.1.fired))).run.run p.world = (.ok (), w)) :
    ∃ p₁, (tickAll (.int g) ts).run.run p = (.ok (ticks.map (·.1)), p₁) ∧ p₁.world = w ∧
      (∀ y, p₁.registersOf y = settle ticks p.registersOf y) ∧ p₁.tables = p.tables ∧
      p₁.gameTick = p.gameTick ∧ p₁.recording = p.recording ∧
      p₁.events = p.events ++ (if p.recording then ticksEvents g ts (ticks.map (·.1)) else []) := by
  obtain ⟨os, p₁, through⟩ := tickAll_through (.int g) ts p distinct ruled performed
  obtain ⟨ticks', ruled', outcomes, performed', settled, tables, gameTick⟩ :=
    tickAll_ok _ ts p p₁ os distinct through
  rw [ruled] at ruled'
  cases ruled'
  obtain ⟨new, recording, -, events, -, rfl⟩ := tickAll_records g ts p p₁ _ through
  -- one run of the fired actions, so one world after it
  have world : p₁.world = w := by
    rw [outcomes, List.flatMap_map, performed] at performed'
    exact (Prod.mk.inj performed').2.symm
  subst outcomes
  exact ⟨p₁, through, world, settled, tables, gameTick, recording, events⟩

theorem tickAll_append_error (g : Value) : ∀ (xs : List (String × RuleTable)) {ys : List (String × RuleTable)}
    {p p₁ p₂ : Player} {os : List Outcome} {err : Fault},
    (tickAll g xs).run.run p = (.ok os, p₁) → (tickAll g ys).run.run p₁ = (.error err, p₂) →
    (tickAll g (xs ++ ys)).run.run p = (.error err, p₂)
  | [], _, _, _, _, _, _, through, failing => by
    cases through
    exact failing
  | (name, t) :: rest, ys, p, p₁, p₂, os, err, through, failing => by
    rw [tickAll_cons_run] at through
    rw [List.cons_append, tickAll_cons_run]
    rcases first : (tick name t g).run.run (p.touch name) with ⟨_ | o, p'⟩
    · rw [first] at through
      cases through
    · rw [first] at through
      dsimp only at through ⊢
      rcases later : (tickAll g rest).run.run p' with ⟨_ | os', p''⟩
      · rw [later] at through
        cases through
      · rw [later] at through
        cases through
        rw [tickAll_append_error g rest later failing]

/-! ## The partial state of a refused game tick -/

theorem settle_of_not_mem {ticks : List (Outcome × Registers)} {regs : String → Registers}
    {y : String} (absent : y ∉ ticks.map (·.1.timeline)) : settle ticks regs y = regs y := by
  have missing : ticks.find? (·.1.timeline == y) = none := by
    rw [List.find?_eq_none]
    intro tick member named
    exact absent ((beq_iff_eq.1 named) ▸ List.mem_map_of_mem member)
  rw [settle, missing]
  rfl

/-- A game tick counts itself and records its start before any timeline ticks. -/
theorem step_begins (p : Player) : ∃ p₀,
    step.run.run p = (tickAll (.int (p.gameTick + 1)) p.tables).run.run p₀ ∧
      p₀.gameTick = p.gameTick + 1 ∧ p₀.tables = p.tables ∧ p₀.registers = p.registers ∧
      p₀.world = p.world ∧ p₀.recording = p.recording ∧
      p₀.events = p.events ++ (if p.recording then [tickStart (p.gameTick + 1) p.tables] else []) := by
  refine ⟨_, step_start p, rfl, rfl, rfl, rfl, rfl, ?_⟩
  cases p.recording <;> simp

/-- A game tick that the world stops at an action fired by timeline `name`, after the timelines
`before` ticked through and the actions `done` of `name` were carried out: the game tick is
counted; the registers are those the timelines before `name` left, and `name` and the later
timelines keep theirs; the events are the start, the events of the ticks before `name` and the
rules of `name` fired before the refused action; and the world has recorded the refused action,
a position state, and moved the entities carrying its tag that come before the first one it
cannot move. -/
theorem interrupted_step {p : Player} {before after : List (String × RuleTable)} {name : String}
    {t : RuleTable} {ticks : List (Outcome × Registers)} {done later : List Action} {a : Action}
    {w₀ w₁ w₂ : World} {err : Fault}
    (distinct : (p.tables.map (·.1)).Nodup) (numbered : p.world.Numbered)
    (tables : p.tables = before ++ (name, t) :: after)
    (earlier : before.mapM (fun e => tickRule e.1 e.2 (p.registersOf e.1)) = .ok ticks)
    (earlierWorld : (performAll (ticks.flatMap (·.1.fired))).run.run p.world = (.ok (), w₀))
    (fired : firing t (p.registersOf name).timer = .ok (done ++ a :: later))
    (applied : (performAll done).run.run w₀ = (.ok (), w₁))
    (refused : (perform a).run.run w₁ = (.error err, w₂)) :
    ∃ p', step.run.run p = (.error err, p') ∧ p'.gameTick = p.gameTick + 1 ∧
      p'.tables = p.tables ∧ (∀ y, p'.registersOf y = settle ticks p.registersOf y) ∧
      (∀ e ∈ (name, t) :: after, p'.registersOf e.1 = p.registersOf e.1) ∧
      p'.events = p.events ++ (if p.recording then tickStart (p.gameTick + 1) p.tables ::
        (ticksEvents (p.gameTick + 1) before (ticks.map (·.1)) ++
          numberFacts (.int (p.gameTick + 1)) name (firedFacts (p.registersOf name).timer done))
        else []) ∧
      p'.world = w₂ ∧
      ∃ target payload moved f rest moved', a = .setState target .position payload ∧
        w₁.entities = moved ++ f :: rest ∧ f.hasTag target = true ∧ f.moved payload = .error err ∧
        Tagged target (Entity.Moved payload) moved moved' ∧
        w₂ = { w₁ with calls := w₁.calls ++ [a], entities := moved' ++ f :: rest } := by
  obtain ⟨p₀, begun, gameTick₀, tables₀, registers₀, world₀, recording₀, events₀⟩ := step_begins p
  have sameRegisters : p₀.registersOf = p.registersOf := by
    funext y
    simp only [Player.registersOf, registers₀]
  rw [tables, List.map_append, List.map_cons] at distinct
  have distinctBefore : (before.map (·.1)).Nodup := (List.nodup_append.1 distinct).1
  have fresh : ∀ e ∈ (name, t) :: after, e.1 ∉ before.map (·.1) := by
    intro e member listed
    exact (List.nodup_append.1 distinct).2.2 _ listed _ (List.mem_map_of_mem member) rfl
  -- the timelines before `name` tick through, into `w₀`
  obtain ⟨p₁, through, world₁, settled, tables₁, gameTick₁, recording₁, events₁⟩ :=
    tickAll_completes (g := p.gameTick + 1) distinctBefore (by rw [sameRegisters]; exact earlier)
      (by rw [world₀]; exact earlierWorld)
  -- the later timelines keep their registers
  have timelines := mapM_tickRule_timelines p.registersOf before ticks earlier
  have unchanged : ∀ e ∈ (name, t) :: after, p₁.registersOf e.1 = p.registersOf e.1 := by
    intro e member
    rw [settled, settle_of_not_mem (by rw [timelines]; exact fresh e member), sameRegisters]
  have timer : ((p₁.touch name).registersOf name).timer = (p.registersOf name).timer := by
    rw [touch_registersOf, unchanged _ List.mem_cons_self]
  -- `name` stops at the refused action
  have stopped := tick_refused (g := .int (p.gameTick + 1)) (by rw [timer]; exact fired)
    (by rw [(touch_frame p₁ name).2.1, world₁]; exact applied) refused
  rw [timer] at stopped
  have failing := tickAll_cons_run (.int (p.gameTick + 1)) name t after p₁
  rw [stopped] at failing
  dsimp only at failing
  rw [tables] at begun
  refine ⟨_, begun.trans (tickAll_append_error _ before through failing), ?_, ?_, ?_, ?_, ?_, rfl, ?_⟩
  · show (p₁.touch name).gameTick = _
    rw [(touch_frame p₁ name).2.2, gameTick₁, gameTick₀]
  · show (p₁.touch name).tables = _
    rw [(touch_frame p₁ name).1, tables₁, tables₀]
  · intro y
    show (p₁.touch name).registersOf y = _
    rw [touch_registersOf, settled, sameRegisters]
  · intro e member
    show (p₁.touch name).registersOf e.1 = _
    rw [touch_registersOf, unchanged e member]
  · show (p₁.touch name).events ++ _ = _
    rw [(touch_events p₁ name).1, (touch_events p₁ name).2, events₁, events₀, recording₁,
      recording₀]
    cases p.recording <;> simp
  · -- the world stays numbered up to the refused action
    exact perform_error (performAll_numbered applied (performAll_numbered earlierWorld numbered))
      refused

/-! ## A move refused half way -/

/-- Moves the entities tagged `e` by an integer too large for a double. -/
def farMove : Action :=
  .setState "e" .position [("offset", .arr [.int (10 ^ 200 * 10 ^ 200), .int 0, .int 0])]

/-- Two entities tagged `e`: the first at the integer origin, the second half a block along. -/
def mixedWorld : World :=
  { entities :=
      [{ id := 1, kind := .blockDisplay, tags := [.str "e"], position := [.int 0, .int 0, .int 0] },
       { id := 2, kind := .blockDisplay, tags := [.str "e"],
         position := [.float 0.5, .int 0, .int 0] }],
    nextId := 3 }

/-- Timeline `a` makes the far move at offset zero, in a cycle of four, in the mixed world. -/
def farMovePlayer : Player :=
  ({ world := mixedWorld } : Player).register "a" ⟨[⟨0, farMove⟩], some (.num 3)⟩

/-- The far move stays an integer at the first entity and needs a double at the second, which
refuses it: the game tick fails at the first action of its first timeline, and the first entity
has moved all the same. -/
theorem refused_move_keeps_earlier_moves :
    (step.run.run farMovePlayer).1.toBool = false ∧
      (step.run.run farMovePlayer).2.world.entities ≠ farMovePlayer.world.entities := by
  refine ⟨by decide +kernel, fun same => ?_⟩
  -- the integers the first entity stands at, before and after
  have first :=
    congrArg (fun es : List Entity => es.head?.map (·.position.map Value.integral?)) same
  revert first
  decide +kernel

/-- `interrupted_step` at the far move: timeline `a` keeps its registers, only the start of the
game tick is recorded, and the world is left as the refused move left it. -/
theorem interrupted_far_move :
    ((perform farMove).run.run mixedWorld).1.toBool = false ∧
      ∃ err p', step.run.run farMovePlayer = (.error err, p') ∧ p'.gameTick = 1 ∧
        p'.registersOf "a" = farMovePlayer.registersOf "a" ∧
        p'.events = [tickStart 1 farMovePlayer.tables] ∧
        p'.world = ((perform farMove).run.run mixedWorld).2 := by
  have failed : ((perform farMove).run.run mixedWorld).1.toBool = false := by decide +kernel
  obtain ⟨err, refused⟩ := pair_eq_error_of_toBool failed
  obtain ⟨p', ran, gameTick, -, -, unchanged, events, world, -⟩ :=
    @interrupted_step farMovePlayer [] [] "a" ⟨[⟨0, farMove⟩], some (.num 3)⟩ [] [] [] farMove
      mixedWorld mixedWorld _ err (by decide +kernel) ⟨rfl, rfl⟩ rfl rfl rfl rfl rfl refused
  exact ⟨failed, err, p', ran, gameTick, unchanged _ List.mem_cons_self, by rw [events]; rfl, world⟩

end Keyframes.Play
