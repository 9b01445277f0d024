import Keyframes.Proofs.Refinement

/-!
# The event stream of a game tick

A player that records events numbers them afresh for every timeline in every game tick. A game
tick records its start first; then each registered timeline, in order of registration, records
the rules that fired, the reset when there was one and the advance, numbered one, two, three, …
(`Outcome.events`). `StepRecords` says what a game tick records both when it goes through and when
it fails: the world may refuse an action, a timer may be one that cannot be looked up or
compared. A failing game tick stops recording where it stops, so the failing timeline records only
the rules that fired before the failure and the timelines after it record nothing.

Either way the numbers within each timeline run from one with no gap and no repeat (`Numbered`),
every event carries the game tick, and a run of game ticks records its events in order of game
tick.

Main statement: `step_records`.
-/

namespace Keyframes.Play
open Keyframes.Json

/-! ## Events as the stream lists them -/

/-- Facts numbered one, two, three, … as the events of one timeline in one game tick. -/
def numberFacts (tick : Value) (name : String) (facts : List Fact) : List Event :=
  facts.mapIdx fun i f => ⟨tick, some name, i + 1, f⟩

/-- The facts of rules that fired at `timer`. -/
def firedFacts (timer : Value) (acts : List Action) : List Fact :=
  acts.map fun a => .ruleFired timer a.describe

/-- The events of a tick that went through: the rules that fired, then the reset when there was
one, then the advance. -/
def Outcome.events (o : Outcome) (tick : Value) (maxOffset : Ticks) : List Event :=
  numberFacts tick o.timeline (firedFacts o.timerBefore o.fired ++
    (if o.reset then [.timelineReset o.timerBefore maxOffset] else []) ++ [.timerAdvanced o.timerAfter])

/-- The event that starts game tick `g` over `tables`. -/
def tickStart (g : Nat) (tables : List (String × RuleTable)) : Event :=
  ⟨.int g, none, 1, .tickStart tables.length⟩

/-- The events of ticks that went through, one timeline after another, each with the greatest
offset of its table. -/
def ticksEvents (g : Nat) (tables : List (String × RuleTable)) (os : List Outcome) : List Event :=
  (List.zipWith (fun e o => o.events (.int g) e.2.maxOffset) tables os).flatten

/-- What the tick of timeline `name` records: all its events when it went through, else the
rules that fired before the failure. -/
def TickRecords (tick : Value) (name : String) (maxOffset : Ticks) :
    Except Fault Outcome → List Event → Prop
  | .ok o, new => o.timeline = name ∧ new = o.events tick maxOffset
  | .error _, new => ∃ timer acts, new = numberFacts tick name (firedFacts timer acts)

/-- What ticking `tables` in order records: the events of every tick when all went through;
else the events of the ticks before the failing one, and for that one the rules that fired
before the failure. -/
def TicksRecords (g : Nat) (tables : List (String × RuleTable)) :
    Except Fault (List Outcome) → List Event → Prop
  | .ok os, new => os.map (·.timeline) = tables.map (·.1) ∧ new = ticksEvents g tables os
  | .error _, new => ∃ before failing after os timer acts, tables = before ++ failing :: after ∧
      os.map (·.timeline) = before.map (·.1) ∧
      new = ticksEvents g before os ++ numberFacts (.int g) failing.1 (firedFacts timer acts)

/-- What game tick `g` over `tables` records: its start, then what ticking the tables records. -/
def StepRecords (g : Nat) (tables : List (String × RuleTable)) (r : Except Fault (List Outcome))
    (new : List Event) : Prop :=
  ∃ rest, new = tickStart g tables :: rest ∧ TicksRecords g tables r rest

/-- Within each timeline, and among the events of the whole player, the events are numbered one,
two, three, … with no gap and no repeat. -/
def Numbered (es : List Event) : Prop :=
  ∀ x : Option String,
    (es.filter (·.timeline == x)).map (·.seq) = List.range' 1 (es.filter (·.timeline == x)).length

/-- Whether a fact is the advance of a timer. -/
def Fact.isAdvance : Fact → Bool
  | .timerAdvanced _ => true
  | _ => false

/-! ## Numbering -/

theorem stamp_eq_numbered (tick : Value) (timeline : Option String) :
    ∀ (seq : Nat) (fs : List Fact),
      stamp tick timeline seq fs = fs.mapIdx fun i f => ⟨tick, timeline, seq + i + 1, f⟩
  | seq, [] => rfl
  | seq, f :: fs => by
    rw [stamp, List.mapIdx_cons, stamp_eq_numbered tick timeline (seq + 1) fs]
    congr 1
    apply congrArg (fun g => List.mapIdx g fs)
    funext i f
    congr 1
    omega

theorem stamp_zero (tick : Value) (name : String) (fs : List Fact) :
    stamp tick (some name) 0 fs = numberFacts tick name fs := by
  rw [stamp_eq_numbered, numberFacts]
  simp only [Nat.zero_add]

theorem stamp_append (tick : Value) (timeline : Option String) :
    ∀ (seq : Nat) (fs gs : List Fact),
      stamp tick timeline seq (fs ++ gs) = stamp tick timeline seq fs ++ stamp tick timeline (seq + fs.length) gs
  | seq, [], gs => rfl
  | seq, f :: fs, gs => by
    rw [List.cons_append, stamp, stamp, stamp_append tick timeline (seq + 1) fs gs, List.length_cons,
      Nat.add_assoc, Nat.add_comm 1]
    rfl

theorem numberFacts_seq (tick : Value) (name : String) (fs : List Fact) :
    (numberFacts tick name fs).map (·.seq) = List.range' 1 (numberFacts tick name fs).length := by
  rw [← stamp_zero, stamp_seq, List.range'_eq_map_range, stamp_eq_numbered, List.length_mapIdx]
  apply List.map_congr_left
  intro i _
  omega

theorem stamp_facts (tick : Value) (timeline : Option String) :
    ∀ (seq : Nat) (fs : List Fact), (stamp tick timeline seq fs).map (·.fact) = fs
  | seq, [] => rfl
  | seq, f :: fs => by rw [stamp, List.map_cons, stamp_facts tick timeline (seq + 1) fs]

theorem mem_numberFacts {tick : Value} {name : String} {fs : List Fact} {e : Event}
    (member : e ∈ numberFacts tick name fs) : e.tick = tick ∧ e.timeline = some name := by
  obtain ⟨i, _, rfl⟩ := List.mem_mapIdx.1 member
  exact ⟨rfl, rfl⟩

/-! ## What one tick records -/

theorem touch_events (p : Player) (name : String) :
    (p.touch name).events = p.events ∧ (p.touch name).recording = p.recording := by
  unfold Player.touch
  split <;> exact ⟨rfl, rfl⟩

/-- Firing actions records one event for each action the world carries out, numbered on from
`seq`, and stops recording at the first it refuses. -/
theorem fire_records (g : Value) (name : String) (timer : Value) :
    ∀ (acts : List Action) (seq : Nat) (p p' : Player) (r : Except Fault Nat),
      (fire g name timer seq acts).run.run p = (r, p') →
      ∃ done, done <+: acts ∧ (∀ n, r = .ok n → done = acts) ∧
        p'.events = p.events ++ (if p.recording then stamp g (some name) seq (firedFacts timer done) else [])
  | [], seq, p, p', r, ran => by
    cases ran
    exact ⟨[], List.nil_prefix, fun _ _ => rfl, by simp [stamp, firedFacts]⟩
  | a :: rest, seq, p, p', r, ran => by
    rcases first : (perform a).run.run p.world with ⟨_ | _, w⟩
    · have refused : (fire g name timer seq (a :: rest)).run.run p = (.error ‹_›, { p with world := w }) := by
        simp only [fire, ExceptT.run_bind, StateT.run_bind, inWorld_run, first]
        rfl
      rw [refused] at ran
      cases ran
      exact ⟨[], List.nil_prefix, (fun _ hit => by cases hit), by simp [stamp, firedFacts]⟩
    · let fired : Event := ⟨g, some name, seq + 1, .ruleFired timer a.describe⟩
      let recorded : Player :=
        { p with world := w, events := if p.recording then p.events ++ [fired] else p.events }
      have carried : (fire g name timer seq (a :: rest)).run.run p =
          (fire g name timer (seq + 1) rest).run.run recorded := by
        rw [fire, bind_run, inWorld_run, first]
        dsimp only
        rw [emit_bind_run]
      rw [carried] at ran
      obtain ⟨done, prefixed, complete, events⟩ := fire_records g name timer rest (seq + 1) recorded p' r ran
      refine ⟨a :: done, List.cons_prefix_cons.2 ⟨rfl, prefixed⟩, fun n hit => by rw [complete n hit], ?_⟩
      rw [events]
      cases hrec : p.recording
      · simp [recorded, hrec]
      · simp [recorded, fired, hrec, stamp, firedFacts]

theorem events_eq_stamp (o : Outcome) (tick : Value) (maxOffset : Ticks) :
    o.events tick maxOffset = stamp tick (some o.timeline) 0 (firedFacts o.timerBefore o.fired) ++
      stamp tick (some o.timeline) o.fired.length
        ((if o.reset then [.timelineReset o.timerBefore maxOffset] else []) ++ [.timerAdvanced o.timerAfter]) := by
  rw [Outcome.events, ← stamp_zero, List.append_assoc, stamp_append, Nat.zero_add, firedFacts,
    List.length_map]

/-- A tick records all its events when it goes through; when it fails, only the rules that
fired before the failure. Nothing but the events and what `tick_run` names changes. -/
theorem tick_records {name : String} {t : RuleTable} {g : Value} {p p' : Player}
    {r : Except Fault Outcome} (ran : (tick name t g).run.run p = (r, p')) :
    ∃ new, p'.recording = p.recording ∧ p'.gameTick = p.gameTick ∧
      p'.events = p.events ++ (if p.recording then new else []) ∧ TickRecords g name t.maxOffset r new := by
  rcases looked : firing t (p.registersOf name).timer with e | fired
  · rw [tick, get_bind_run, settled_bind_run, looked] at ran
    cases ran
    exact ⟨[], rfl, rfl, by simp, (p.registersOf name).timer, [], rfl⟩
  · obtain ⟨events, fire_eq⟩ := fire_run g name (p.registersOf name).timer fired 0 p
    obtain ⟨done, -, complete, recorded⟩ := fire_records g name _ fired 0 p _ _ fire_eq
    rw [tick, get_bind_run, settled_bind_run, looked] at ran
    dsimp only at ran
    rw [bind_run, fire_eq] at ran
    rcases world : (performAll fired).run.run p.world with ⟨_ | _, w⟩
    · rw [world] at ran recorded
      cases ran
      exact ⟨_, rfl, rfl, by rw [recorded, stamp_zero], _, done, rfl⟩
    · rw [world] at ran recorded complete
      dsimp only [Except.map] at ran complete
      -- Every action went through, so every one was recorded.
      have all : done = fired := complete _ rfl
      subst all
      rw [get_bind_run] at ran
      have same : ({ p with world := w, events } : Player).registersOf name = p.registersOf name := rfl
      rw [same] at ran
      rcases advanced : advance (p.registersOf name) t.maxOffset with e | ⟨after, reset⟩
      · rw [advanced, settled_bind_run] at ran
        cases ran
        exact ⟨_, rfl, rfl, by rw [recorded, stamp_zero], _, done, rfl⟩
      · rw [advanced, settled_bind_run] at ran
        dsimp only at ran
        rw [modify_bind_run, emit_bind_run] at ran
        cases ran
        refine ⟨_, rfl, rfl, ?_, rfl, rfl⟩
        rw [events_eq_stamp]
        cases hrec : p.recording <;> simp [Player.setRegisters, recorded, hrec]

/-! ## What a game tick records -/

theorem ticksEvents_cons (g : Nat) (e : String × RuleTable) (tables : List (String × RuleTable))
    (o : Outcome) (os : List Outcome) :
    ticksEvents g (e :: tables) (o :: os) = o.events (.int g) e.2.maxOffset ++ ticksEvents g tables os :=
  rfl

theorem appended_if (rec : Bool) (es xs ys : List Event) :
    (es ++ if rec then xs else []) ++ (if rec then ys else []) = es ++ if rec then xs ++ ys else [] := by
  cases rec <;> simp

/-- Ticking tables in order records the events of each tick in turn, and stops recording at the
first tick that fails. -/
theorem tickAll_records (g : Nat) :
    ∀ (ts : List (String × RuleTable)) (p p' : Player) (r : Except Fault (List Outcome)),
      (tickAll (.int g) ts).run.run p = (r, p') →
      ∃ new, p'.recording = p.recording ∧ p'.gameTick = p.gameTick ∧
        p'.events = p.events ++ (if p.recording then new else []) ∧ TicksRecords g ts r new
  | [], p, p', r, ran => by
    cases ran
    exact ⟨[], rfl, rfl, by simp, rfl, rfl⟩
  | (name, t) :: rest, p, p', r, ran => by
    rw [tickAll_cons_run] at ran
    obtain ⟨touchedEvents, touchedRecording⟩ := touch_events p name
    have touchedTick := (touch_frame p name).2.2
    rcases first : (tick name t (.int g)).run.run (p.touch name) with ⟨_ | o, p₁⟩
    · rw [first] at ran
      cases ran
      obtain ⟨new, recording, gameTick, events, timer, acts, rfl⟩ := tick_records first
      refine ⟨_, by rw [recording, touchedRecording], by rw [gameTick, touchedTick],
        by rw [events, touchedEvents, touchedRecording]; rfl, [], (name, t), rest, [], timer, acts, rfl, rfl, rfl⟩
    · rw [first] at ran
      dsimp only at ran
      obtain ⟨new₁, recording₁, gameTick₁, events₁, named, rfl⟩ := tick_records first
      rcases later : (tickAll (.int g) rest).run.run p₁ with ⟨_ | os, p₂⟩
      · rw [later] at ran
        cases ran
        obtain ⟨new₂, recording₂, gameTick₂, events₂, before, failing, after, os, timer, acts, split,
          timelines, rfl⟩ := tickAll_records g rest p₁ p' _ later
        refine ⟨_, by rw [recording₂, recording₁, touchedRecording], by rw [gameTick₂, gameTick₁, touchedTick],
          ?_, (name, t) :: before, failing, after, o :: os, timer, acts, by rw [split]; rfl,
          by simp [named, timelines], rfl⟩
        rw [events₂, events₁, touchedEvents, recording₁, touchedRecording, appended_if,
          ticksEvents_cons, List.append_assoc]
      · rw [later] at ran
        cases ran
        obtain ⟨new₂, recording₂, gameTick₂, events₂, timelines, rfl⟩ := tickAll_records g rest p₁ p' _ later
        refine ⟨_, by rw [recording₂, recording₁, touchedRecording], by rw [gameTick₂, gameTick₁, touchedTick],
          ?_, by simp [named, timelines], rfl⟩
        rw [events₂, events₁, touchedEvents, recording₁, touchedRecording, appended_if, ticksEvents_cons]

theorem step_start (p : Player) :
    step.run.run p = (tickAll (.int (p.gameTick + 1)) p.tables).run.run
      { p with gameTick := p.gameTick + 1,
               events := if p.recording then p.events ++ [tickStart (p.gameTick + 1) p.tables] else p.events } := by
  rw [step, modify_bind_run, get_bind_run, emit_bind_run]
  rfl

/-- A game tick of a player that records events records its start and then what ticking the
registered tables records. -/
theorem step_appends {p p' : Player} {r : Except Fault (List Outcome)} (recording : p.recording = true)
    (ran : step.run.run p = (r, p')) :
    p'.gameTick = p.gameTick + 1 ∧ p'.recording = true ∧
      ∃ new, p'.events = p.events ++ new ∧ StepRecords (p.gameTick + 1) p.tables r new := by
  rw [step_start] at ran
  obtain ⟨rest, recording', gameTick, events, recorded⟩ := tickAll_records _ p.tables _ p' r ran
  simp only [recording, if_true] at recording' events
  exact ⟨gameTick, recording', _, by rw [events, List.append_assoc]; rfl, rest, rfl, recorded⟩

/-! ## Blocks of one timeline -/

/-- The events one timeline (or the player, for `none`) records in game tick `g`: all carry the
game tick and the timeline, numbered from one. -/
def Block (g : Nat) (b : Option String × List Event) : Prop :=
  (∀ e ∈ b.2, e.tick = .int g ∧ e.timeline = b.1) ∧ b.2.map (·.seq) = List.range' 1 b.2.length

/-- The events of ticks that went through, each under the timeline that recorded them. -/
def blocksOf (g : Nat) (tables : List (String × RuleTable)) (os : List Outcome) :
    List (Option String × List Event) :=
  List.zipWith (fun e o => (some o.timeline, o.events (.int g) e.2.maxOffset)) tables os

theorem block_numberFacts (g : Nat) (name : String) (fs : List Fact) :
    Block g (some name, numberFacts (.int g) name fs) :=
  ⟨fun _ member => mem_numberFacts member, numberFacts_seq _ _ _⟩

theorem block_tickStart (g : Nat) (tables : List (String × RuleTable)) :
    Block g (none, [tickStart g tables]) :=
  ⟨fun e member => by rw [List.mem_singleton.1 member]; exact ⟨rfl, rfl⟩, rfl⟩

theorem blocksOf_block (g : Nat) :
    ∀ (tables : List (String × RuleTable)) (os : List Outcome), ∀ b ∈ blocksOf g tables os, Block g b
  | [], _, _, member => by simp [blocksOf] at member
  | _ :: _, [], _, member => by simp [blocksOf] at member
  | e :: tables, o :: os, b, member => by
    rcases List.mem_cons.1 member with rfl | later
    · exact block_numberFacts g o.timeline _
    · exact blocksOf_block g tables os b later

theorem blocksOf_flatMap (g : Nat) (tables : List (String × RuleTable)) (os : List Outcome) :
    (blocksOf g tables os).flatMap (·.2) = ticksEvents g tables os := by
  rw [blocksOf, ticksEvents, List.flatMap_def, List.map_zipWith]

theorem blocksOf_keys (g : Nat) :
    ∀ (tables : List (String × RuleTable)) (os : List Outcome), os.map (·.timeline) = tables.map (·.1) →
      (blocksOf g tables os).map (·.1) = tables.map (fun e => some e.1)
  | [], [], _ => rfl
  | [], _ :: _, named => by simp at named
  | _ :: _, [], named => by simp at named
  | e :: tables, o :: os, named => by
    rw [List.map_cons, List.map_cons, List.cons.injEq] at named
    rw [blocksOf, List.zipWith_cons_cons, List.map_cons, List.map_cons, ← blocksOf,
      blocksOf_keys g tables os named.2, named.1]

theorem events_advances (o : Outcome) (tick : Value) (maxOffset : Ticks) :
    (o.events tick maxOffset).countP (·.fact.isAdvance) = 1 := by
  have facts : (o.events tick maxOffset).map (·.fact) = firedFacts o.timerBefore o.fired ++
      (if o.reset then [.timelineReset o.timerBefore maxOffset] else []) ++ [.timerAdvanced o.timerAfter] := by
    rw [Outcome.events, ← stamp_zero, stamp_facts]
  have counted := congrArg (List.countP Fact.isAdvance) facts
  rw [List.countP_map] at counted
  rw [show (fun e : Event => e.fact.isAdvance) = Fact.isAdvance ∘ (·.fact) from rfl, counted]
  have fired : (firedFacts o.timerBefore o.fired).countP Fact.isAdvance = 0 := by
    simp [firedFacts, Fact.isAdvance]
  cases o.reset <;> simp [fired, Fact.isAdvance]

theorem blocksOf_advances (g : Nat) :
    ∀ (tables : List (String × RuleTable)) (os : List Outcome),
      ∀ b ∈ blocksOf g tables os, b.2.countP (·.fact.isAdvance) = 1
  | [], _, _, member => by simp [blocksOf] at member
  | _ :: _, [], _, member => by simp [blocksOf] at member
  | e :: tables, o :: os, b, member => by
    rcases List.mem_cons.1 member with rfl | later
    · exact events_advances o _ _
    · exact blocksOf_advances g tables os b later

/-- The events of timelines that each recorded a block, filtered to one timeline: the block of
that timeline, when there is one. -/
theorem filter_blocks (x : Option String) :
    ∀ (blocks : List (Option String × List Event)), (blocks.map (·.1)).Nodup →
      (∀ b ∈ blocks, ∀ e ∈ b.2, e.timeline = b.1) →
      (blocks.flatMap (·.2)).filter (·.timeline == x) = ((blocks.find? (·.1 == x)).map (·.2)).getD []
  | [], _, _ => rfl
  | b :: bs, keys, owned => by
    rw [List.flatMap_cons, List.filter_append, List.find?_cons]
    have rest := filter_blocks x bs (List.nodup_cons.1 keys).2
      (fun b' member => owned b' (List.mem_cons_of_mem _ member))
    by_cases same : b.1 = x
    · have whole : b.2.filter (·.timeline == x) = b.2 :=
        List.filter_eq_self.2 fun e member => by simp [owned b List.mem_cons_self e member, same]
      -- No later block is of `x`, which names `b`'s block.
      have others : (bs.flatMap (·.2)).filter (·.timeline == x) = [] := by
        refine List.filter_eq_nil_iff.2 fun e member hit => ?_
        obtain ⟨b', later, owner⟩ := List.mem_flatMap.1 member
        have named : b'.1 = x := by
          rw [← owned b' (List.mem_cons_of_mem _ later) e owner]
          exact beq_iff_eq.1 hit
        exact (List.nodup_cons.1 keys).1 (List.mem_map.2 ⟨b', later, named.trans same.symm⟩)
      simp [whole, others, same]
    · have none : b.2.filter (·.timeline == x) = [] :=
        List.filter_eq_nil_iff.2 fun e member => by simp [owned b List.mem_cons_self e member, same]
      have miss : (b.1 == x) = false := by simpa using same
      simp [none, miss, rest]

theorem numbered_blocks {g : Nat} {blocks : List (Option String × List Event)}
    (keys : (blocks.map (·.1)).Nodup) (blocked : ∀ b ∈ blocks, Block g b) :
    Numbered (blocks.flatMap (·.2)) := by
  intro x
  rw [filter_blocks x blocks keys fun b member e owner => ((blocked b member).1 e owner).2]
  rcases found : blocks.find? (·.1 == x) with _ | b
  · rw [found]
    rfl
  · rw [found]
    exact (blocked b (List.mem_of_find?_eq_some found)).2

/-! ## What follows for the stream -/

/-- A game tick's events, by the timeline that recorded them: the player's start, then each
timeline it ticked, in order of registration. -/
theorem StepRecords.blocks {g : Nat} {tables : List (String × RuleTable)}
    {r : Except Fault (List Outcome)} {new : List Event} (recorded : StepRecords g tables r new) :
    ∃ (blocks : List (Option String × List Event)) (ticked : List (String × RuleTable)),
      List.Sublist ticked tables ∧ blocks.map (·.1) = none :: ticked.map (fun e => some e.1) ∧
      (∀ b ∈ blocks, Block g b) ∧ new = blocks.flatMap (·.2) := by
  obtain ⟨rest, rfl, ticks⟩ := recorded
  cases r with
  | ok os =>
    obtain ⟨named, rfl⟩ := ticks
    refine ⟨(none, [tickStart g tables]) :: blocksOf g tables os, tables, List.Sublist.refl _,
      by rw [List.map_cons, blocksOf_keys g tables os named], ?_, by rw [List.flatMap_cons, blocksOf_flatMap]; rfl⟩
    intro b member
    rcases List.mem_cons.1 member with rfl | later
    · exact block_tickStart g tables
    · exact blocksOf_block g tables os b later
  | error e =>
    -- The failing timeline recorded the rules that fired before the failure, after the
    -- timelines ticked before it.
    obtain ⟨before, failing, after, os, timer, acts, rfl, named, rfl⟩ := ticks
    refine ⟨(none, [tickStart g (before ++ failing :: after)]) ::
        (blocksOf g before os ++ [(some failing.1, numberFacts (.int g) failing.1 (firedFacts timer acts))]),
      before ++ [failing], (List.Sublist.refl before).append (List.Sublist.cons_cons failing (List.nil_sublist after)),
      by rw [List.map_cons, List.map_append, blocksOf_keys g before os named, List.map_append]; rfl, ?_,
      by rw [List.flatMap_cons, List.flatMap_append, blocksOf_flatMap]; simp⟩
    intro b member
    rcases List.mem_cons.1 member with rfl | later
    · exact block_tickStart g _
    · rcases List.mem_append.1 later with ticked | last
      · exact blocksOf_block g before os b ticked
      · rw [List.mem_singleton.1 last]
        exact block_numberFacts g failing.1 _

theorem keys_nodup {ticked tables : List (String × RuleTable)} (sub : List.Sublist ticked tables)
    (distinct : (tables.map (·.1)).Nodup) : (none :: ticked.map (fun e => some e.1)).Nodup := by
  have names : (ticked.map (·.1)).Nodup := distinct.sublist (sub.map _)
  have somes := names.map (Option.some_injective String)
  rw [List.map_map] at somes
  exact List.nodup_cons.2 ⟨by simp, somes⟩

/-- In a game tick that went through, every registered timeline records exactly one advance. -/
theorem advances_once {g : Nat} {tables : List (String × RuleTable)} {os : List Outcome}
    (named : os.map (·.timeline) = tables.map (·.1)) (distinct : (tables.map (·.1)).Nodup)
    (x : String) (registered : x ∈ tables.map (·.1)) :
    (tickStart g tables :: ticksEvents g tables os).countP (fun e => e.fact.isAdvance && e.timeline == some x) = 1 := by
  let blocks := (none, [tickStart g tables]) :: blocksOf g tables os
  have keys : blocks.map (·.1) = none :: tables.map (fun e => some e.1) := by
    rw [List.map_cons, blocksOf_keys g tables os named]
  have flat : tickStart g tables :: ticksEvents g tables os = blocks.flatMap (·.2) := by
    rw [List.flatMap_cons, blocksOf_flatMap]
    rfl
  have owned : ∀ b ∈ blocks, ∀ e ∈ b.2, e.timeline = b.1 := by
    intro b member
    rcases List.mem_cons.1 member with rfl | later
    · exact fun e owner => ((block_tickStart g tables).1 e owner).2
    · exact fun e owner => ((blocksOf_block g tables os b later).1 e owner).2
  have nodup : (blocks.map (·.1)).Nodup := by
    rw [keys]
    exact keys_nodup (List.Sublist.refl _) distinct
  -- The block of `x` is one of the ticked timelines' blocks, and holds one advance.
  obtain ⟨b, found⟩ : ∃ b, blocks.find? (·.1 == some x) = some b := by
    obtain ⟨e, member, rfl⟩ := List.mem_map.1 registered
    have listed : some e.1 ∈ blocks.map (·.1) := by
      rw [keys]
      exact List.mem_cons_of_mem _ (List.mem_map_of_mem member)
    obtain ⟨b, owned, key⟩ := List.mem_map.1 listed
    exact Option.isSome_iff_exists.1 (List.find?_isSome.2 ⟨b, owned, by simp [key]⟩)
  have ticked : b ∈ blocksOf g tables os := by
    obtain ⟨hit, member⟩ := List.find?_eq_some_iff_append.1 found
    rcases List.mem_cons.1 (List.mem_of_find?_eq_some found) with rfl | later
    · simp at hit
    · exact later
  rw [flat, ← List.countP_filter, filter_blocks (some x) blocks nodup owned, found]
  exact blocksOf_advances g tables os b ticked

theorem StepRecords.stamped {g : Nat} {tables : List (String × RuleTable)}
    {r : Except Fault (List Outcome)} {new : List Event} (recorded : StepRecords g tables r new) :
    ∀ e ∈ new, e.tick = .int g := by
  obtain ⟨blocks, -, -, -, blocked, rfl⟩ := recorded.blocks
  intro e member
  obtain ⟨b, owner, inside⟩ := List.mem_flatMap.1 member
  exact ((blocked b owner).1 e inside).1

/-- What a game tick records, as the stream shows it. -/
structure StepStream (g : Nat) (tables : List (String × RuleTable)) (r : Except Fault (List Outcome))
    (new : List Event) : Prop where
  /-- The start, then the events of the timelines in order of registration, as far as the game
  tick went. -/
  records : StepRecords g tables r new
  /-- Every event carries the game tick. -/
  stamped : ∀ e ∈ new, e.tick = .int g
  /-- Within each timeline the events are numbered from one, with no gap and no repeat. -/
  numbered : Numbered new
  /-- A game tick that went through advanced every registered timeline once. -/
  advancedOnce : ∀ os, r = .ok os → ∀ x ∈ tables.map (·.1),
    new.countP (fun e => e.fact.isAdvance && e.timeline == some x) = 1

theorem StepRecords.stream {g : Nat} {tables : List (String × RuleTable)}
    {r : Except Fault (List Outcome)} {new : List Event} (recorded : StepRecords g tables r new)
    (distinct : (tables.map (·.1)).Nodup) : StepStream g tables r new where
  records := recorded
  stamped := recorded.stamped
  numbered := by
    obtain ⟨blocks, ticked, sub, keys, blocked, rfl⟩ := recorded.blocks
    exact numbered_blocks (keys ▸ keys_nodup sub distinct) blocked
  advancedOnce os went x registered := by
    obtain ⟨rest, rfl, ticks⟩ := recorded
    subst went
    obtain ⟨named, rfl⟩ := ticks
    exact advances_once named distinct x registered

theorem ticks_of_stamped {g : Nat} {es : List Event} (stamped : ∀ e ∈ es, e.tick = .int g) :
    es.map (·.tick) = (List.replicate es.length g).map (fun g : Nat => Value.int g) := by
  rw [List.map_replicate, ← List.map_const']
  exact List.map_congr_left stamped

/-- A run of game ticks records its events in order of game tick. -/
theorem run_sorted : ∀ (n : Nat) (p : Player), p.recording = true →
    ∃ (new : List Event) (ticks : List Nat), ((run n).run.run p).2.events = p.events ++ new ∧
      new.map (·.tick) = ticks.map (fun g : Nat => Value.int g) ∧ ticks.Pairwise (· ≤ ·) ∧
      ∀ t ∈ ticks, p.gameTick < t
  | 0, p, _ => ⟨[], [], by rw [List.append_nil]; rfl, rfl, List.Pairwise.nil, by simp⟩
  | n + 1, p, recording => by
    rcases first : step.run.run p with ⟨r, p₁⟩
    obtain ⟨gameTick, recording₁, new₁, events₁, recorded⟩ := step_appends recording first
    have stamped := ticks_of_stamped recorded.stamped
    have started : ∀ t ∈ List.replicate new₁.length (p.gameTick + 1), p.gameTick < t := by
      intro t member
      rw [List.eq_of_mem_replicate member]
      omega
    rw [run, bind_run, first]
    cases r with
    | error e =>
      exact ⟨new₁, _, events₁, stamped, List.pairwise_replicate.2 (Or.inr (Nat.le_refl _)), started⟩
    | ok os =>
      obtain ⟨new₂, ticks₂, events₂, stamped₂, sorted₂, later₂⟩ := run_sorted n p₁ recording₁
      dsimp only
      rw [bind_run]
      -- Whether or not the rest of the run goes through, its events follow the first game tick's.
      have rest : ∀ (r₂ : Except Fault (List (List Outcome))) (p₂ : Player),
          (run n).run.run p₁ = (r₂, p₂) → p₂.events = p.events ++ (new₁ ++ new₂) := by
        intro r₂ p₂ ran
        rw [ran] at events₂
        rw [events₂, events₁, List.append_assoc]
      refine ⟨new₁ ++ new₂, List.replicate new₁.length (p.gameTick + 1) ++ ticks₂, ?_,
        by rw [List.map_append, List.map_append, stamped, stamped₂], ?_, ?_⟩
      · rcases later : (run n).run.run p₁ with ⟨_ | _, p₂⟩
        · exact rest _ p₂ later
        · exact rest _ p₂ later
      · refine List.pairwise_append.2 ⟨List.pairwise_replicate.2 (Or.inr (Nat.le_refl _)), sorted₂, ?_⟩
        intro a first b second
        rw [List.eq_of_mem_replicate first]
        have := later₂ b second
        omega
      · intro t member
        rcases List.mem_append.1 member with here | there
        · exact started t here
        · have := later₂ t there
          omega

/-- A game tick of a player that records events, with the names of its tables distinct as
registering keeps them: it counts the game tick, records the start and then, timeline after
timeline, what each tick did (`StepRecords`), every event stamped with the game tick and numbered
from one within its timeline; one that went through advanced every registered timeline once. A
run of game ticks records its events in order of game tick. -/
theorem step_records (p : Player) (recording : p.recording = true)
    (distinct : (p.tables.map (·.1)).Nodup) :
    (step.run.run p).2.gameTick = p.gameTick + 1 ∧
      (∃ new, (step.run.run p).2.events = p.events ++ new ∧
        StepStream (p.gameTick + 1) p.tables (step.run.run p).1 new) ∧
      ∀ n, ∃ (new : List Event) (ticks : List Nat), ((run n).run.run p).2.events = p.events ++ new ∧
        new.map (·.tick) = ticks.map (fun g : Nat => Value.int g) ∧ ticks.Pairwise (· ≤ ·) := by
  obtain ⟨gameTick, -, new, events, recorded⟩ := step_appends recording (Prod.mk.eta (p := step.run.run p)).symm
  refine ⟨gameTick, ⟨new, events, recorded.stream distinct⟩, fun n => ?_⟩
  obtain ⟨new, ticks, events, stamped, sorted, -⟩ := run_sorted n p recording
  exact ⟨new, ticks, events, stamped, sorted⟩

/-- Two timelines, `a` firing two rules at zero in a cycle of one tick, and `b` with no rules. -/
def recordingPlayer : Player :=
  (({} : Player).register "a" ⟨[⟨0, .raw "say a"⟩, ⟨0, .raw "say b"⟩], some (.num 1)⟩).register "b" ⟨[], none⟩

theorem step_records_two :
    recordingPlayer.recording = true ∧ (recordingPlayer.tables.map (·.1)).Nodup ∧
      (step.run.run recordingPlayer).2.gameTick = recordingPlayer.gameTick + 1 ∧
      (∃ new, (step.run.run recordingPlayer).2.events = recordingPlayer.events ++ new ∧
        StepStream (recordingPlayer.gameTick + 1) recordingPlayer.tables (step.run.run recordingPlayer).1 new) ∧
      ∀ n, ∃ (new : List Event) (ticks : List Nat), ((run n).run.run recordingPlayer).2.events = recordingPlayer.events ++ new ∧
        new.map (·.tick) = ticks.map (fun g : Nat => Value.int g) ∧ ticks.Pairwise (· ≤ ·) :=
  have distinct : (recordingPlayer.tables.map (·.1)).Nodup := by decide
  ⟨rfl, distinct, step_records recordingPlayer rfl distinct⟩

/-- The world refuses the first action of `a`, and the game tick records its start and nothing
else: neither timeline records an advance. -/
theorem refused_step_records_start_only :
    (step.run.run (twoTimelines taggedPlayer.world)).1.toBool = false ∧
      (step.run.run (twoTimelines taggedPlayer.world)).2.events.map (·.timeline) = [none] :=
  ⟨by decide, by decide⟩

end Keyframes.Play
