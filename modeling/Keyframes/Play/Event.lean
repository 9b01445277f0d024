import Keyframes.Action

/-!
# Playback events

What a timeline did during one game tick, recorded in order. Each event carries the game tick
(a whole number when the player counts it, any value a caller stamps it with), the timeline
(none for an event of the whole player), its number within that tick and timeline, and what
happened:

* `tickStart`: a game tick begins, with the number of tables registered;
* `ruleFired`: a rule fired at the timer value, described by its action's label;
* `timelineReset`: the timer reached the table's greatest offset and the timeline starts over;
* `timerAdvanced`: the timer moved on, to the value given.

Numbers restart at one for every timeline in every tick, however many timelines ran before.

Main statement: `stamp_seq` (stamped events are numbered from the number after the last).
-/

namespace Keyframes.Play
open Keyframes.Json

/-- What happened. -/
inductive Fact where
  | tickStart (timelines : Nat)
  | ruleFired (timer : Value) (action : String)
  | timelineReset (timer : Value) (maxOffset : Ticks)
  | timerAdvanced (timer : Value)
deriving Repr, Inhabited

/-- One recorded fact of playback. -/
structure Event where
  tick : Value
  timeline : Option String
  seq : Nat
  fact : Fact
deriving Repr, Inhabited

/-- The name of the type of a fact. -/
def Fact.typeName : Fact → String
  | .tickStart _ => "TICK_START"
  | .ruleFired .. => "RULE_FIRED"
  | .timelineReset .. => "TIMELINE_RESET"
  | .timerAdvanced _ => "TIMER_ADVANCED"

/-- The data fields of a fact. -/
def Fact.data : Fact → List (String × Value)
  | .tickStart n => [("timelines", .int n)]
  | .ruleFired timer action => [("timer", timer), ("action", .str action)]
  | .timelineReset timer maxOffset => [("timer", timer), ("max_offset", maxOffset.toJson)]
  | .timerAdvanced timer => [("timer", timer)]

/-- The JSON form of an event, as event streams are written. -/
def Event.toJson (e : Event) : Value :=
  .obj [("tick", e.tick), ("timeline", (e.timeline.map Value.str).getD .null),
    ("seq", .int e.seq), ("type", .str e.fact.typeName), ("data", .obj e.fact.data)]

/-- Numbers facts of one timeline (or of the player) within one game tick, after the `seq`
events already numbered. -/
def stamp (tick : Value) (timeline : Option String) (seq : Nat) : List Fact → List Event
  | [] => []
  | f :: fs => ⟨tick, timeline, seq + 1, f⟩ :: stamp tick timeline (seq + 1) fs

theorem stamp_seq (tick : Value) (timeline : Option String) (seq : Nat) (fs : List Fact) :
    (stamp tick timeline seq fs).map (·.seq) = (List.range fs.length).map (· + seq + 1) := by
  induction fs generalizing seq with
  | nil => rfl
  | cons f fs ih =>
    simp only [stamp, List.map_cons, List.length_cons, ih, List.range_succ_eq_map,
      List.map_map]
    congr 1
    · omega
    · apply List.map_congr_left
      intro i _
      simp only [Function.comp]
      omega

end Keyframes.Play
