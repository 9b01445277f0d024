import Keyframes.Play.Player
import Mathlib

/-!
# One tick of one timeline

What `tick` does to a player, read off once so that later proofs never unfold it: the actions at
the timer are carried out in the world one after another (`performAll`), and only if all of
them go through are the registers advanced. Nothing else of the player changes but the events.

* `tick_run`: the tick of any timer value, failures included;
* `tick_ok`: a tick that goes through is the tick rule `tickRule` on the registers, with the
  fired actions carried out in the world;
* `tick_int_run`: the tick of an integer timer, which fails only in the world.
-/

namespace Keyframes.Play
open Keyframes.Json

/-- Carries out actions in the world one after another, stopping at the first that fails. -/
def performAll : List Action → WorldM Unit
  | [] => pure ()
  | a :: rest => do perform a; performAll rest

/-! ## Running the world -/

theorem performAll_cons_run (a : Action) (rest : List Action) (w : World) :
    (performAll (a :: rest)).run.run w =
      match (perform a).run.run w with
      | (.ok _, w') => (performAll rest).run.run w'
      | (.error e, w') => (.error e, w') := by
  simp only [performAll, ExceptT.run_bind, StateT.run_bind]
  rcases (perform a).run.run w with ⟨_ | _, w'⟩ <;> simp <;> rfl

theorem performAll_append_run (xs ys : List Action) (w : World) :
    (performAll (xs ++ ys)).run.run w =
      match (performAll xs).run.run w with
      | (.ok _, w') => (performAll ys).run.run w'
      | (.error e, w') => (.error e, w') := by
  induction xs generalizing w with
  | nil => rfl
  | cons a rest ih =>
      rw [List.cons_append, performAll_cons_run, performAll_cons_run]
      rcases (perform a).run.run w with ⟨_ | _, w'⟩
      · rfl
      · exact ih w'

theorem moveTagged_calls (tag : String) (payload : List (String × Value)) :
    ∀ (entities : List Entity) (w : World),
      ((moveTagged tag payload entities).run.run w).2.calls = w.calls
  | [], w => rfl
  | e :: rest, w => by
      simp only [moveTagged]
      split
      · cases moved : e.moved payload with
        | error err => rfl
        | ok f => exact moveTagged_calls tag payload rest _
      · exact moveTagged_calls tag payload rest w

/-- Every action is recorded in the world's calls, whether or not it then goes through. -/
theorem perform_calls (a : Action) (w : World) :
    ((perform a).run.run w).2.calls = w.calls ++ [a] := by
  cases a with
  | setState target kind payload =>
      simp only [perform, ExceptT.run_bind, StateT.run_bind]
      split
      · exact moveTagged_calls target payload _ _
      · rfl
  | merge | summon | setBlock | raw => rfl

theorem performAll_calls : ∀ (acts : List Action) (w w' : World),
    (performAll acts).run.run w = (.ok (), w') → w'.calls = w.calls ++ acts
  | [], w, w', accepted => by
      cases accepted
      simp
  | a :: rest, w, w', accepted => by
      rw [performAll_cons_run] at accepted
      rcases first : (perform a).run.run w with ⟨_ | _, w₁⟩
      · rw [first] at accepted
        cases accepted
      · rw [first] at accepted
        have recorded : w₁.calls = w.calls ++ [a] := by
          simpa [first] using perform_calls a w
        rw [performAll_calls rest w₁ w' accepted, recorded, List.append_assoc]
        rfl

/-! ## Registers by name -/

theorem find?_assign_map {α : Type} (entries : List (String × α)) (key other : String) (a : α) :
    ((entries.map fun e => if e.1 == key then (key, a) else e).find? (·.1 == other)).map (·.2) =
      if other = key then ((entries.find? (·.1 == key)).map fun _ => a)
      else (entries.find? (·.1 == other)).map (·.2) := by
  induction entries with
  | nil => split <;> rfl
  | cons e rest ih =>
      rw [List.map_cons, List.find?_cons, List.find?_cons, List.find?_cons]
      by_cases here : e.1 = key
      · have first : (e.1 == key) = true := by simpa using here
        by_cases same : other = key
        · simp [first, same]
        · have miss : (key == other) = false := by simpa using Ne.symm same
          have miss' : (e.1 == other) = false := by simpa [here] using Ne.symm same
          simp only [first, ite_true, miss, miss', same, ite_false] at ih ⊢
          simpa [same] using ih
      · have first : (e.1 == key) = false := by simpa using here
        simp only [first, Bool.false_eq_true, ite_false]
        by_cases hit : e.1 = other
        · have neq : other ≠ key := hit ▸ here
          have found : (e.1 == other) = true := by simpa using hit
          simp [found, neq]
        · have miss : (e.1 == other) = false := by simpa using hit
          simp only [miss, ih]

theorem lookup_assign {α : Type} (entries : List (String × α)) (key other : String) (a : α) :
    ((assign entries key a).find? (·.1 == other)).map (·.2) =
      if other = key then some a else (entries.find? (·.1 == other)).map (·.2) := by
  unfold assign
  split
  · rename_i present
    rw [find?_assign_map]
    split
    · obtain ⟨e, member, named⟩ := List.any_eq_true.1 present
      obtain ⟨found, hit⟩ := Option.isSome_iff_exists.1
        (List.find?_isSome.2 ⟨e, member, named⟩ : (entries.find? (·.1 == key)).isSome)
      rw [hit]
      rfl
    · rfl
  · rename_i absent
    rw [List.find?_append]
    split
    · rename_i same
      subst same
      have missing : entries.find? (·.1 == other) = none := by
        rw [List.find?_eq_none]
        intro e member named
        exact absent (List.any_eq_true.2 ⟨e, member, named⟩)
      simp [missing]
    · rename_i distinct
      have skipped : [(key, a)].find? (·.1 == other) = none := by
        simp [Ne.symm distinct]
      rw [skipped, Option.or_none]

theorem registersOf_of_assign {p p' : Player} {name : String} {r : Registers}
    (assigned : p'.registers = assign p.registers name r) (other : String) :
    p'.registersOf other = if other = name then r else p.registersOf other := by
  unfold Player.registersOf
  rw [assigned, lookup_assign]
  split <;> rfl

theorem touch_registersOf (p : Player) (name other : String) :
    (p.touch name).registersOf other = p.registersOf other := by
  unfold Player.touch
  split
  · rfl
  · rename_i absent
    unfold Player.registersOf
    rw [List.find?_append]
    have missing : p.registers.find? (·.1 == name) = none := by
      rw [List.find?_eq_none]
      intro e member named
      exact absent (List.any_eq_true.2 ⟨e, member, named⟩)
    by_cases same : other = name
    · subst same
      simp [missing]
    · have skipped : [(name, ({} : Registers))].find? (·.1 == other) = none := by
        simp [Ne.symm same]
      simp only [skipped, Option.or_none]

theorem touch_frame (p : Player) (name : String) :
    (p.touch name).tables = p.tables ∧ (p.touch name).world = p.world ∧
      (p.touch name).gameTick = p.gameTick := by
  unfold Player.touch
  split <;> exact ⟨rfl, rfl, rfl⟩

/-! ## Running player operations -/

theorem bind_run {α β : Type} (x : PlayM α) (f : α → PlayM β) (p : Player) :
    (x >>= f).run.run p = match x.run.run p with
      | (.ok a, p') => (f a).run.run p'
      | (.error e, p') => (.error e, p') := by
  simp only [ExceptT.run_bind, StateT.run_bind]
  rcases x.run.run p with ⟨_ | _, p'⟩ <;> rfl

theorem get_bind_run {α : Type} (f : Player → PlayM α) (p : Player) :
    ((get : PlayM Player) >>= f).run.run p = (f p).run.run p := rfl

theorem settled_bind_run {α β : Type} (x : Except Fault α) (f : α → PlayM β) (p : Player) :
    (settled x >>= f).run.run p = match x with
      | .ok a => (f a).run.run p
      | .error e => (.error e, p) := by
  cases x <;> rfl

theorem modify_bind_run {α : Type} (g : Player → Player) (f : Unit → PlayM α) (p : Player) :
    ((modify g : PlayM Unit) >>= f).run.run p = (f ()).run.run (g p) := rfl

theorem emit_bind_run {α : Type} (es : List Event) (f : Unit → PlayM α) (p : Player) :
    (emit es >>= f).run.run p =
      (f ()).run.run { p with events := if p.recording then p.events ++ es else p.events } := by
  obtain ⟨tables, registers, gameTick, world, events, recording⟩ := p
  cases recording <;> rfl

theorem inWorld_run {α : Type} (m : WorldM α) (p : Player) :
    (inWorld m).run.run p = ((m.run.run p.world).1, { p with world := (m.run.run p.world).2 }) := by
  unfold inWorld
  rw [get_bind_run]
  rcases m.run.run p.world with ⟨_ | _, w'⟩ <;> rfl

/-! ## Firing and ticking -/

theorem fire_run (g : Value) (name : String) (timer : Value) :
    ∀ (acts : List Action) (seq : Nat) (p : Player), ∃ events,
      (fire g name timer seq acts).run.run p =
        (((performAll acts).run.run p.world).1.map fun _ => seq + acts.length,
          { p with world := ((performAll acts).run.run p.world).2, events })
  | [], seq, p => ⟨p.events, rfl⟩
  | a :: rest, seq, p => by
      rw [performAll_cons_run]
      rcases first : (perform a).run.run p.world with ⟨_ | _, w'⟩
      · refine ⟨p.events, ?_⟩
        simp only [fire, ExceptT.run_bind, StateT.run_bind, inWorld_run, first]
        rfl
      · let fired : Player := { p with world := w' }
        let recorded : Player := if fired.recording then
          { fired with events := fired.events ++ [⟨g, some name, seq + 1, .ruleFired timer a.describe⟩] }
          else fired
        have step : (fire g name timer seq (a :: rest)).run.run p =
            (fire g name timer (seq + 1) rest).run.run recorded := by
          simp only [fire, ExceptT.run_bind, StateT.run_bind, inWorld_run, first]
          rfl
        obtain ⟨events₁, shape⟩ : ∃ events₁, recorded = { p with world := w', events := events₁ } := by
          simp only [recorded, fired]
          split
          · exact ⟨_, rfl⟩
          · exact ⟨_, rfl⟩
        obtain ⟨events, rest_run⟩ := fire_run g name timer rest (seq + 1) recorded
        refine ⟨events, ?_⟩
        rw [step, rest_run, shape, List.length_cons, Nat.add_assoc, Nat.add_comm 1]

/-- A tick of any timer value. A timer that cannot be looked up fails before anything happens;
the world may fail on one of the actions; a timer that cannot be compared fails after the
actions. Only a tick that goes through sets the registers. -/
theorem tick_run (name : String) (t : RuleTable) (g : Value) (p : Player) : ∃ events,
    (tick name t g).run.run p =
      match firing t (p.registersOf name).timer with
      | .error e => (.error e, p)
      | .ok fired =>
        match (performAll fired).run.run p.world with
        | (.error e, w) => (.error e, { p with world := w, events })
        | (.ok _, w) =>
          match advance (p.registersOf name) t.maxOffset with
          | .error e => (.error e, { p with world := w, events })
          | .ok (after, reset) =>
            (.ok ⟨name, (p.registersOf name).timer, after.timer, fired, reset⟩,
              { p with world := w, events, registers := assign p.registers name after }) := by
  rcases looked : firing t (p.registersOf name).timer with e | fired
  · refine ⟨p.events, ?_⟩
    rw [tick, get_bind_run, settled_bind_run, looked]
  · obtain ⟨events, fire_eq⟩ := fire_run g name (p.registersOf name).timer fired 0 p
    rw [tick, get_bind_run, settled_bind_run, looked]
    dsimp only
    rw [bind_run, fire_eq]
    rcases (performAll fired).run.run p.world with ⟨_ | _, w⟩
    · exact ⟨events, rfl⟩
    · have same : ({ p with world := w, events } : Player).registersOf name = p.registersOf name :=
        rfl
      dsimp only [Except.map]
      rw [get_bind_run, same]
      rcases advanced : advance (p.registersOf name) t.maxOffset with e | ⟨after, reset⟩
      · exact ⟨events, by rw [settled_bind_run]⟩
      · rw [settled_bind_run]
        dsimp only
        rw [modify_bind_run, emit_bind_run]
        exact ⟨_, rfl⟩

/-- The tick rule of one timeline, apart from the world: the outcome and the registers after. -/
def tickRule (name : String) (t : RuleTable) (r : Registers) : Except Fault (Outcome × Registers) := do
  let fired ← firing t r.timer
  let (after, reset) ← advance r t.maxOffset
  pure (⟨name, r.timer, after.timer, fired, reset⟩, after)

theorem tick_ok {name : String} {t : RuleTable} {g : Value} {p p' : Player} {o : Outcome}
    (ticked : (tick name t g).run.run p = (.ok o, p')) :
    ∃ after events, tickRule name t (p.registersOf name) = .ok (o, after) ∧
      (performAll o.fired).run.run p.world = (.ok (), p'.world) ∧
      p' = { p with registers := assign p.registers name after, world := p'.world, events } := by
  obtain ⟨events, run⟩ := tick_run name t g p
  rw [ticked] at run
  rcases looked : firing t (p.registersOf name).timer with e | fired
  · rw [looked] at run
    cases run
  · rw [looked] at run
    dsimp only at run
    rcases world : (performAll fired).run.run p.world with ⟨_ | _, w⟩
    · rw [world] at run
      cases run
    · rw [world] at run
      dsimp only at run
      rcases advanced : advance (p.registersOf name) t.maxOffset with e | ⟨after, reset⟩
      · rw [advanced] at run
        cases run
      · rw [advanced] at run
        dsimp only at run
        injection run with outcome player
        injection outcome with outcome
        subst outcome player
        refine ⟨after, events, ?_, world, rfl⟩
        simp only [tickRule, looked, advanced]
        rfl

theorem tickRule_timeline {name : String} {t : RuleTable} {r : Registers} {o : Outcome}
    {after : Registers} (ruled : tickRule name t r = .ok (o, after)) : o.timeline = name := by
  unfold tickRule at ruled
  rcases looked : firing t r.timer with e | fired
  · rw [looked] at ruled
    cases ruled
  · rcases advanced : advance r t.maxOffset with e | ⟨after', reset⟩
    · rw [looked, advanced] at ruled
      cases ruled
    · rw [looked, advanced] at ruled
      cases ruled
      rfl

/-! ## Integer timers -/

/-- The timer after a tick of a cycle whose last offset is `maxOffset`: zero once the timer has
reached it, else one more. -/
def nextTimer (maxOffset : Nat) (timer : Int) : Int :=
  if (maxOffset : Int) ≤ timer then 0 else timer + 1

/-- The timer and the flags after a tick: a reset zeroes both. -/
def tickClock (maxOffset : Nat) (clock : Int × Value) : Int × Value :=
  if (maxOffset : Int) ≤ clock.1 then (0, .int 0) else (clock.1 + 1, clock.2)

theorem tickClock_fst (maxOffset : Nat) (clock : Int × Value) :
    (tickClock maxOffset clock).1 = nextTimer maxOffset clock.1 := by
  unfold tickClock nextTimer
  split <;> rfl

def Registers.ofClock (clock : Int × Value) : Registers :=
  ⟨.int clock.1, clock.2⟩

theorem firing_int (t : RuleTable) (n : Int) : firing t (.int n) = .ok (t.actionsAt n) := rfl

theorem advance_int (n : Int) (flags : Value) (m : Ticks) :
    advance ⟨.int n, flags⟩ m =
      .ok (.ofClock (tickClock m.toNat (n, flags)), decide ((m.toNat : Int) ≤ n)) := by
  rw [advance_registers]
  unfold tickClock
  by_cases reached : (m.toNat : Int) ≤ n
  · simp only [reached, ite_true, decide_true]
    rfl
  · simp only [reached, ite_false, decide_false]
    rfl

theorem tick_int_run (name : String) (t : RuleTable) (g : Value) (p : Player) (n : Int)
    (flags : Value) (current : p.registersOf name = ⟨.int n, flags⟩) : ∃ events,
    (tick name t g).run.run p =
      match (performAll (t.actionsAt n)).run.run p.world with
      | (.error e, w) => (.error e, { p with world := w, events })
      | (.ok _, w) =>
        (.ok ⟨name, .int n, .int (tickClock t.maxOffset.toNat (n, flags)).1, t.actionsAt n,
            decide ((t.maxOffset.toNat : Int) ≤ n)⟩,
          { p with registers := assign p.registers name (.ofClock (tickClock t.maxOffset.toNat (n, flags))),
                   world := w, events }) := by
  obtain ⟨events, ticked⟩ := tick_run name t g p
  refine ⟨events, ?_⟩
  rw [ticked, current]
  dsimp only
  rw [firing_int]
  dsimp only
  rw [advance_int]
  rcases (performAll (t.actionsAt n)).run.run p.world with ⟨_ | _, w⟩ <;> rfl

/-! ## What ticks leave alone -/

/-- `p'` is `p` after ticks of the timeline `name` that left its registers at `r` and the world
at `w`: nothing else has changed but the events. -/
structure Ticked (p p' : Player) (name : String) (r : Registers) (w : World) : Prop where
  registers : p'.registersOf name = r
  others : ∀ other, other ≠ name → p'.registersOf other = p.registersOf other
  world : p'.world = w
  tables : p'.tables = p.tables
  gameTick : p'.gameTick = p.gameTick

theorem Ticked.refl (p : Player) (name : String) : Ticked p p name (p.registersOf name) p.world :=
  ⟨rfl, fun _ _ => rfl, rfl, rfl, rfl⟩

theorem Ticked.trans {p p₁ p₂ : Player} {name : String} {r₁ r₂ : Registers} {w₁ w₂ : World}
    (first : Ticked p p₁ name r₁ w₁) (second : Ticked p₁ p₂ name r₂ w₂) :
    Ticked p p₂ name r₂ w₂ :=
  ⟨second.registers, fun other distinct => (second.others other distinct).trans (first.others other distinct),
    second.world, second.tables.trans first.tables, second.gameTick.trans first.gameTick⟩

theorem ticked_assign (p : Player) (name : String) (r : Registers) (w : World) (events : List Event) :
    Ticked p { p with registers := assign p.registers name r, world := w, events } name r w where
  registers := by rw [registersOf_of_assign rfl, if_pos rfl]
  others other distinct := by rw [registersOf_of_assign rfl, if_neg distinct]
  world := rfl
  tables := rfl
  gameTick := rfl

end Keyframes.Play
