import Keyframes.World
import Keyframes.RuleTable
import Keyframes.Json.Show
import Keyframes.Json.Arith
import Keyframes.Play.Event

/-!
# The timeline player

A player owns rule tables by timeline name and, for every timeline it has heard of, two
registers: a timer and a set of flags, both zero when the timeline is first named. One game tick
(`step`) advances every registered timeline once, in order of registration.

The tick of one timeline is the whole playback rule:

1. every rule whose offset equals the timer fires, in the order of the table;
2. if the timer has reached the table's greatest offset (or passed it, as a timer set from
   outside may), the flags become zero and the timer `-1`;
3. the timer goes up by one, so a reset lands on zero.

Registers set from outside may hold any value, so the rule is stated on values: a timer equals
an offset when it is that number (`Value.integral?`), it reaches the greatest offset when it is
a number at least as great (NaN never does), and it goes up by adding one (`Value.plus`). A
timer that is an array or an object cannot be looked up, and one that is no number cannot be
compared; both stop the tick with a fault of the wrong kind. Playback itself only ever stores
integers.

Rules fire by handing their action to the world. A failure there stops the tick where it is:
the player runs in `ExceptT Fault (StateM Player)`, so the game tick already counted, the
actions already carried out and the events already recorded stay.

Main statements: `advance_registers` (the registers after the reset check and the advance) and
`register_keeps_registers` (registering a table again keeps the timeline's counters).
-/

namespace Keyframes.Play
open Keyframes.Json

/-- The counters of one timeline. -/
structure Registers where
  timer : Value := .int 0
  flags : Value := .int 0
deriving Repr, Inhabited

/-- What one tick of one timeline did. -/
structure Outcome where
  timeline : String
  timerBefore : Value
  timerAfter : Value
  fired : List Action
  reset : Bool

/-- A player: tables in order of registration, the registers of every timeline named so far
in order of first naming, the game ticks played, the world, and the events recorded (when
`recording` holds). -/
structure Player where
  tables : List (String × RuleTable) := []
  registers : List (String × Registers) := []
  gameTick : Nat := 0
  world : World := {}
  events : List Event := []
  recording : Bool := true
deriving Inhabited

/-- Player operations that may fail, keeping what they changed before. -/
abbrev PlayM := ExceptT Fault (StateM Player)

/-- Replaces the entry of a key, in place, or appends one. -/
def assign {α : Type} (entries : List (String × α)) (key : String) (a : α) : List (String × α) :=
  if entries.any (·.1 == key) then entries.map fun e => if e.1 == key then (key, a) else e
  else entries ++ [(key, a)]

namespace Player

/-- The registers of a timeline; zero for one not named yet. -/
def registersOf (p : Player) (name : String) : Registers :=
  ((p.registers.find? (·.1 == name)).map (·.2)).getD {}

/-- Names a timeline, giving it zeroed registers the first time. -/
def touch (p : Player) (name : String) : Player :=
  if p.registers.any (·.1 == name) then p
  else { p with registers := p.registers ++ [(name, {})] }

/-- Sets the registers of a timeline. -/
def setRegisters (p : Player) (name : String) (r : Registers) : Player :=
  { p with registers := assign p.registers name r }

/-- The table of a timeline, if one is registered. -/
def table? (p : Player) (name : String) : Option RuleTable :=
  (p.tables.find? (·.1 == name)).map (·.2)

/-- The names of the registered tables, in order of registration. -/
def names (p : Player) : List String :=
  p.tables.map (·.1)

/-- Registers a table under a name, replacing the table of that name in place; the timeline
keeps its registers, or gets zeroed ones. -/
def register (p : Player) (name : String) (t : RuleTable) : Player :=
  ({ p with tables := assign p.tables name t } : Player).touch name

end Player

/-- Records events, when the player records any. -/
def emit (es : List Event) : PlayM Unit :=
  modify fun p => if p.recording then { p with events := p.events ++ es } else p

/-- Runs a world operation on the player's world. -/
def inWorld {α : Type} (m : WorldM α) : PlayM α := do
  let p ← get
  let (r, w) := (m.run).run p.world
  set { p with world := w }
  match r with
  | .ok a => pure a
  | .error err => throw err

/-- Fires actions one after another, recording an event after each; gives the number of
events recorded. -/
def fire (tick : Value) (name : String) (timer : Value) : Nat → List Action → PlayM Nat
  | seq, [] => pure seq
  | seq, a :: rest => do
    inWorld (perform a)
    emit [⟨tick, some name, seq + 1, .ruleFired timer a.describe⟩]
    fire tick name timer (seq + 1) rest

/-- The actions that fire at a timer value: those at the offset the value equals. An array or
an object cannot be looked up. -/
def firing (t : RuleTable) (timer : Value) : Except Fault (List Action) :=
  match timer with
  | .arr _ | .obj _ => .error (.wrongType ("unhashable type: '" ++ timer.kindName ++ "'"))
  | _ =>
    match timer.integral? with
    | some n => .ok (t.actionsAt n)
    | none => .ok []

/-- Whether a timer has reached the greatest offset. NaN has not; a timer that is no number
cannot be compared. -/
def reached (timer : Value) (maxOffset : Ticks) : Except Fault Bool :=
  match timer.compareInt maxOffset.toNat with
  | some (some o) => .ok (o != .lt)
  | some none => .ok false
  | none => .error (.wrongType ("'>=' not supported between instances of '" ++ timer.kindName ++
      "' and '" ++ maxOffset.kindName ++ "'"))

/-- The registers after the reset check and the advance, and whether the timeline reset. -/
def advance (r : Registers) (maxOffset : Ticks) : Except Fault (Registers × Bool) := do
  if ← reached r.timer maxOffset then pure ({ timer := .int 0, flags := .int 0 }, true)
  else pure ({ r with timer := ← r.timer.plus (.int 1) }, false)

/-- An operation that has already succeeded or failed, as a player operation. -/
def settled {α : Type} (x : Except Fault α) : PlayM α :=
  ExceptT.mk (pure x)

/-- Advances one timeline by one tick, stamping its events with `tick`. -/
def tick (name : String) (t : RuleTable) (tick : Value) : PlayM Outcome := do
  let before := ((← get).registersOf name).timer
  let fired ← settled (firing t before)
  let seq ← fire tick name before 0 fired
  let (after, reset) ← settled (advance ((← get).registersOf name) t.maxOffset)
  modify fun p => p.setRegisters name after
  let resetEvent := if reset then [Fact.timelineReset before t.maxOffset] else []
  emit (stamp tick (some name) seq (resetEvent ++ [.timerAdvanced after.timer]))
  pure ⟨name, before, after.timer, fired, reset⟩

/-- Ticks the timelines of the given tables in order. -/
def tickAll (gameTick : Value) : List (String × RuleTable) → PlayM (List Outcome)
  | [] => pure []
  | (name, t) :: rest => do
    modify fun p => p.touch name
    let o ← tick name t gameTick
    let os ← tickAll gameTick rest
    pure (o :: os)

/-- One game tick: counts it, records its start, and ticks every registered timeline once. -/
def step : PlayM (List Outcome) := do
  modify fun p => { p with gameTick := p.gameTick + 1 }
  let p ← get
  emit [⟨.int p.gameTick, none, 1, .tickStart p.tables.length⟩]
  tickAll (.int p.gameTick) p.tables

/-- Plays `n` game ticks. -/
def run : Nat → PlayM (List (List Outcome))
  | 0 => pure []
  | n + 1 => do
    let o ← step
    let os ← run n
    pure (o :: os)

/-- Plays as many game ticks as the whole number of a value (none when it is negative). -/
def runFor (n : Value) : PlayM (List (List Outcome)) := do
  run (← settled n.toInt).toNat

/-- Ticks one timeline outside a game tick, stamping its events with `gameTick`; the game tick
count does not move. The timeline is named before its table is looked up, so it exists even
when it has no table. -/
def tickOne (name : String) (gameTick : Value) : PlayM Outcome := do
  modify fun p => p.touch name
  match (← get).table? name with
  | some t => tick name t gameTick
  | none => throw (.missingKey (Text.quote name))

/-- Sets the timer of a timeline, naming it if needed. -/
def setTimer (name : String) (v : Value) : PlayM Unit :=
  modify fun p => let p := p.touch name; p.setRegisters name { p.registersOf name with timer := v }

/-- Sets the flags of a timeline, naming it if needed. -/
def setFlags (name : String) (v : Value) : PlayM Unit :=
  modify fun p => let p := p.touch name; p.setRegisters name { p.registersOf name with flags := v }

/-- Places an entity before any timeline runs, as a caller describes it by values: the kind
named by a value, the members of one value, spread as arguments, as its tags and the members
of another as its position; gives its id. The members are taken first, then the kind is checked, and last the
tags must be values a set can hold (no arrays, no objects). -/
def addEntity (kind tags position : Value) : PlayM Nat := do
  let tags ← settled tags.spread
  let position ← settled position.members
  let some k := (match kind with | .str s => EntityKind.ofName? s | _ => none)
    | throw (.notInSet kind.repr "EntityKind")
  if let some t := tags.find? (fun t => match t with | .arr _ | .obj _ => true | _ => false) then
    throw (.wrongType ("unhashable type: '" ++ t.kindName ++ "'"))
  let (id, w) := (← get).world.addEntity k tags position
  modify fun p => { p with world := w }
  pure id

theorem advance_registers (n : Int) (flags : Value) (m : Ticks) :
    advance ⟨.int n, flags⟩ m = .ok (if (m.toNat : Int) ≤ n then ({ timer := .int 0, flags := .int 0 }, true)
      else ({ timer := .int (n + 1), flags }, false)) := by
  have hr : reached (.int n) m = .ok (decide ((m.toNat : Int) ≤ n)) := by
    simp only [reached, Value.compareInt]
    congr 1
    by_cases h : (m.toNat : Int) ≤ n
    · have hne : compare n (m.toNat : Int) ≠ .lt := fun e => by
        rw [Int.compare_eq_lt] at e
        omega
      simp [hne, h]
    · have heq : compare n (m.toNat : Int) = .lt := by
        rw [Int.compare_eq_lt]
        omega
      simp [heq, h]
  by_cases h : (m.toNat : Int) ≤ n
  · rw [advance, hr, decide_eq_true h, if_pos h]
    rfl
  · rw [advance, hr, decide_eq_false h, if_neg h]
    rfl

theorem register_keeps_registers (p : Player) (name : String) (t : RuleTable) :
    (p.register name t).registersOf name = p.registersOf name ∨
      (p.registersOf name = {} ∧ (p.register name t).registersOf name = {}) := by
  unfold Player.register Player.touch Player.registersOf
  split
  · left; rfl
  · right
    rename_i h
    constructor
    · have : p.registers.find? (·.1 == name) = none := by
        rw [List.find?_eq_none]
        intro x hx hx2
        exact h (List.any_eq_true.2 ⟨x, hx, hx2⟩)
      simp [this]
    · have : p.registers.find? (·.1 == name) = none := by
        rw [List.find?_eq_none]
        intro x hx hx2
        exact h (List.any_eq_true.2 ⟨x, hx, hx2⟩)
      simp [List.find?_append, this]

end Keyframes.Play
