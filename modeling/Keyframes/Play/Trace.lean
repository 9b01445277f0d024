import Keyframes.Play.Player

/-!
# Playback traces

A trace records, for every game tick played, what each timeline did: the timer the rules were
matched against, the timer and flags after the tick, the labels of the rules that fired, and
whether the timeline reset. Tracing plays through `step`, so it follows the same rules as
playback and changes nothing.

The text of a trace writes each tick as `Tick` and its number right-aligned in four places,
then one line per timeline, showing its timer before and after (`Json.Value.show`), and one
per fired rule. Ticks where nothing fired and nothing reset
may be left out.

Main statement: `renderTrace_nil` (the empty trace has the empty text).
-/

namespace Keyframes.Play

/-- What one timeline did in one traced tick. -/
structure TimelineTrace where
  name : String
  timerBefore : Json.Value
  timerAfter : Json.Value
  flagsAfter : Json.Value
  fired : List String
  reset : Bool

/-- One traced game tick. -/
structure TickTrace where
  tick : Nat
  timelines : List TimelineTrace

/-- The number of rules that fired in a traced tick. -/
def TickTrace.firedCount (t : TickTrace) : Nat :=
  t.timelines.foldr (fun tl n => tl.fired.length + n) 0

/-- The trace of a tick's outcomes, with the flags as the player holds them after it. -/
def snapshot (p : Player) (outcomes : List Outcome) : TickTrace :=
  { tick := p.gameTick
    timelines := outcomes.map fun o =>
      { name := o.timeline, timerBefore := o.timerBefore, timerAfter := o.timerAfter
        flagsAfter := (p.registersOf o.timeline).flags, fired := o.fired.map (·.describe)
        reset := o.reset } }

/-- Plays `n` game ticks, tracing each. -/
def runTraced : Nat → PlayM (List TickTrace)
  | 0 => pure []
  | n + 1 => do
    let outcomes ← step
    let t := snapshot (← get) outcomes
    let ts ← runTraced n
    pure (t :: ts)

/-- Plays as many game ticks as a value counts, tracing each: the value must be a whole number
(or a truth value), and a negative one plays none. -/
def runTracedFor (n : Json.Value) : PlayM (List TickTrace) := do
  runTraced (← settled n.toIndex).toNat

/-- A number right-aligned in four places. -/
def padTick (n : Nat) : String :=
  let s := toString n
  String.ofList (List.replicate (4 - s.length) ' ') ++ s

/-- The lines of one traced tick. -/
def TickTrace.lines (t : TickTrace) : List String :=
  ("Tick " ++ padTick t.tick) :: t.timelines.flatMap fun tl =>
    ("  " ++ tl.name ++ ": timer " ++ tl.timerBefore.show ++ " -> " ++ tl.timerAfter.show ++
      (if tl.reset then " (reset)" else "")) :: tl.fired.map ("    - " ++ ·)

/-- Whether a traced tick did anything: fired a rule or reset a timeline. -/
def TickTrace.active (t : TickTrace) : Bool :=
  t.firedCount != 0 || t.timelines.any (·.reset)

/-- The text of a trace; with `onlyActive`, ticks that did nothing are left out. -/
def renderTrace (log : List TickTrace) (onlyActive : Bool) : String :=
  let shown := if onlyActive then log.filter (·.active) else log
  let lines := shown.flatMap (·.lines)
  "\n".intercalate lines ++ (if lines.isEmpty then "" else "\n")

theorem renderTrace_nil (onlyActive : Bool) : renderTrace [] onlyActive = "" := by
  cases onlyActive <;> rfl

end Keyframes.Play
