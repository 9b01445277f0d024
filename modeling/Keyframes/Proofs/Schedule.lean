import Keyframes.Bake
import Keyframes.Proofs.Except

/-!
# Where baking puts each statement

Baking a program walks its statements with a running offset: the ticks of the waits before a
statement. `schedule` pairs every statement with that offset. Every statement but the object
line, a wait and a command run on every tick becomes one rule at its offset, and the rules keep
the order of the source; what each becomes is `Statement.Becomes` (a merge only up to its values,
which depend on the transformations before it).

The proof follows the baker: `Baker.bake_step` says what one statement does to it,
`Baker.bakeAll_run` what a run of statements does, and `compileProgram_scheduled` reads the
table off the baker at the end. As offsets never go down, the last rule has the greatest offset,
and the cycle ends at the sum of all the waits, through the end offset exactly when that sum
lies beyond the last rule.
-/

namespace Keyframes.Source

/-- The ticks a statement waits: those of a wait; no other statement waits. -/
def Statement.ticks : Statement → Nat
  | .wait t => t
  | _ => 0

/-- Whether a statement becomes a rule: all do but the object line, a wait and a command run on
every tick. -/
def Statement.isRule : Statement → Bool
  | .objectName _ _ | .wait _ => false
  | .raw _ delayed => delayed
  | _ => true

/-- The command a statement adds to every tick, if it is one. -/
def Statement.everyTick? : Statement → Option String
  | .raw command false => some command
  | _ => none

/-- Each statement with its running offset: `start` and the ticks of the waits before it. -/
def schedule (start : Nat) : List Statement → List (Nat × Statement)
  | [] => []
  | s :: rest => (start, s) :: schedule (start + s.ticks) rest

def waitTicks (ss : List Statement) : Nat :=
  (ss.map Statement.ticks).sum

theorem waitTicks_cons (s : Statement) (ss : List Statement) :
    waitTicks (s :: ss) = s.ticks + waitTicks ss := by
  simp [waitTicks]

theorem schedule_bounds (start : Nat) :
    ∀ ss : List Statement, ∀ e ∈ schedule start ss, start ≤ e.1 ∧ e.1 ≤ start + waitTicks ss
  | [], e, member => by simp [schedule] at member
  | s :: rest, e, member => by
    rw [schedule, List.mem_cons] at member
    rw [waitTicks_cons]
    rcases member with here | later
    · subst here
      exact ⟨Nat.le_refl _, Nat.le_add_right _ _⟩
    · have bounds := schedule_bounds (start + s.ticks) rest e later
      omega

theorem schedule_sorted (start : Nat) :
    ∀ ss : List Statement, ((schedule start ss).map (·.1)).Pairwise (· ≤ ·)
  | [] => List.Pairwise.nil
  | s :: rest => by
    rw [schedule, List.map_cons, List.pairwise_cons]
    refine ⟨?_, schedule_sorted (start + s.ticks) rest⟩
    intro o member
    obtain ⟨e, owned, rfl⟩ := List.mem_map.1 member
    have bounds := schedule_bounds (start + s.ticks) rest e owned
    omega

end Keyframes.Source

namespace Keyframes
open Keyframes.Source

/-- The action a statement of an object becomes; of a merge, only where it goes, as its values
depend on the statements before it. -/
def Source.Statement.Becomes (objectName : String) : Statement → Action → Prop
  | .translate e _ d, a => ∃ vs, a = .merge (entityTag objectName e) .translation vs (.num d) (.num 0)
  | .rotate e _ _ d, a => ∃ vs, a = .merge (entityTag objectName e) .leftRotation vs (.num d) (.num 0)
  | .scale e _ d, a => ∃ vs, a = .merge (entityTag objectName e) .scale vs (.num d) (.num 0)
  | .spawn source kind e, a =>
    a = .summon kind (tagSet [objectName, entityTag objectName e]) (some (entityTag objectName source))
  | .item e i, a => a = .setState (entityTag objectName e) .item [("item", .str i)]
  | .block e blockId props, a =>
    a = .setState (entityTag objectName e) .block
      [("id", .str blockId), ("properties", Json.objOfFields (props.map fun (n, v) => (n, .str v)))]
  | .text e t, a => a = .setState (entityTag objectName e) .text [("text", .str t)]
  | .teleport e o, a =>
    a = .setState (entityTag objectName e) .position
      [("offset", .arr ((Baker.components o).map Json.Value.float))]
  | .placeBlock x y z blockId, a => a = .setBlock x y z blockId
  | .raw command _, a => a = .raw command
  | .objectName _ _, _ | .wait _, _ => False

namespace Baker

@[simp] theorem track_objectName (b : Baker) (e : String) (t : Tracked) :
    (b.track e t).objectName = b.objectName := by
  unfold track
  split <;> rfl

@[simp] theorem track_delay (b : Baker) (e : String) (t : Tracked) : (b.track e t).delay = b.delay := by
  unfold track
  split <;> rfl

@[simp] theorem track_rules (b : Baker) (e : String) (t : Tracked) : (b.track e t).rules = b.rules := by
  unfold track
  split <;> rfl

@[simp] theorem track_everyTick (b : Baker) (e : String) (t : Tracked) :
    (b.track e t).everyTick = b.everyTick := by
  unfold track
  split <;> rfl

theorem merge_ok {b b' : Baker} {e : String} {channel : Channel} {values : List Float} {d : Nat}
    (merged : b.merge e channel values d = .ok b') :
    ∃ vs, b' = b.add (.merge (b.tag e) channel vs (.num d) (.num 0)) := by
  unfold merge at merged
  rcases made : Action.merge? (b.tag e) channel values (.num d) (.num 0) with err | a
  · rw [made] at merged
    cases merged
  · rw [made] at merged
    cases merged
    obtain ⟨vs, -, -, rfl⟩ := merge?_values made
    exact ⟨vs, rfl⟩

/-- What baking one statement does to the baker. -/
structure Step (b b' : Baker) (s : Statement) : Prop where
  objectName : b'.objectName = b.objectName
  delay : b'.delay = b.delay + s.ticks
  everyTick : b'.everyTick = s.everyTick?.toList ++ b.everyTick
  rules : if s.isRule then ∃ a, s.Becomes b.objectName a ∧ b'.rules = ⟨b.delay, a⟩ :: b.rules
    else b'.rules = b.rules

/-- A statement that becomes the rule `a`, added after the tracked entities changed. -/
theorem step_add {b b₀ : Baker} {s : Statement} {a : Action} (objectName : b₀.objectName = b.objectName)
    (delay : b₀.delay = b.delay) (rules : b₀.rules = b.rules) (everyTick : b₀.everyTick = b.everyTick)
    (ticks : s.ticks = 0) (command : s.everyTick? = none) (ruled : s.isRule = true)
    (becomes : s.Becomes b.objectName a) : Step b (b₀.add a) s where
  objectName := objectName
  delay := by rw [ticks, Nat.add_zero]; exact delay
  everyTick := by rw [command]; exact everyTick
  rules := by rw [if_pos ruled, ← delay, ← rules]; exact ⟨a, becomes, rfl⟩

theorem bake_step {b b' : Baker} {s : Statement} (baked : b.bake s = .ok b') : Step b b' s := by
  cases s with
  | objectName o a =>
    cases baked
    exact ⟨rfl, rfl, rfl, rfl⟩
  | wait t =>
    cases baked
    exact ⟨rfl, rfl, rfl, rfl⟩
  | translate e c d =>
    obtain ⟨vs, rfl⟩ := merge_ok baked
    exact step_add (by simp) (by simp) (by simp) (by simp) rfl rfl rfl ⟨vs, by simp [tag]⟩
  | scale e c d =>
    obtain ⟨vs, rfl⟩ := merge_ok baked
    exact step_add (by simp) (by simp) (by simp) (by simp) rfl rfl rfl ⟨vs, by simp [tag]⟩
  | rotate e axis angle d =>
    obtain ⟨turn, -, composed⟩ := bind_eq_ok.1 baked
    obtain ⟨q, -, merged⟩ := bind_eq_ok.1 composed
    obtain ⟨vs, rfl⟩ := merge_ok merged
    exact step_add (by simp) (by simp) (by simp) (by simp) rfl rfl rfl ⟨vs, by simp [tag]⟩
  | spawn source kind e =>
    cases baked
    exact step_add (by simp) (by simp) (by simp) (by simp) rfl rfl rfl (by simp [Source.Statement.Becomes, tag])
  | item e i =>
    cases baked
    exact step_add rfl rfl rfl rfl rfl rfl rfl rfl
  | block e blockId props =>
    cases baked
    exact step_add rfl rfl rfl rfl rfl rfl rfl rfl
  | text e t =>
    cases baked
    exact step_add rfl rfl rfl rfl rfl rfl rfl rfl
  | teleport e o =>
    cases baked
    exact step_add rfl rfl rfl rfl rfl rfl rfl rfl
  | placeBlock x y z blockId =>
    cases baked
    exact step_add rfl rfl rfl rfl rfl rfl rfl rfl
  | raw command delayed =>
    cases delayed with
    | true =>
      cases baked
      exact step_add rfl rfl rfl rfl rfl rfl rfl rfl
    | false =>
      cases baked
      exact ⟨rfl, rfl, rfl, rfl⟩

/-- What baking a run of statements does to the baker: the rules it adds, in reverse, are the
rules of the statements that make one, at their running offsets. -/
structure Run (b b' : Baker) (ss : List Statement) : Prop where
  objectName : b'.objectName = b.objectName
  delay : b'.delay = b.delay + waitTicks ss
  everyTick : b'.everyTick = (ss.filterMap Statement.everyTick?).reverse ++ b.everyTick
  rules : ∃ added : List Rule, b'.rules = added.reverse ++ b.rules ∧
    List.Forall₂ (fun r e => r.offset = e.1 ∧ e.2.Becomes b.objectName r.action) added
      ((schedule b.delay ss).filter (·.2.isRule))

theorem Run.nil (b : Baker) : Run b b [] :=
  ⟨rfl, rfl, rfl, ⟨[], rfl, List.Forall₂.nil⟩⟩

theorem Run.cons {b b₁ b' : Baker} {s : Statement} {rest : List Statement} (first : Step b b₁ s)
    (later : Run b₁ b' rest) : Run b b' (s :: rest) where
  objectName := later.objectName.trans first.objectName
  delay := by rw [later.delay, first.delay, waitTicks_cons, Nat.add_assoc]
  everyTick := by
    rw [later.everyTick, first.everyTick, List.filterMap_cons]
    cases s.everyTick? <;> simp
  rules := by
    -- The baker puts a rule at its delay in front of the rules of the statements after it.
    obtain ⟨added, rules, placed⟩ := later.rules
    rw [first.objectName, first.delay] at placed
    have step := first.rules
    rw [schedule, List.filter_cons]
    split
    · rename_i ruled
      rw [if_pos ruled] at step
      obtain ⟨a, becomes, added₁⟩ := step
      refine ⟨⟨b.delay, a⟩ :: added, ?_, List.Forall₂.cons ⟨rfl, becomes⟩ placed⟩
      rw [rules, added₁, List.reverse_cons, List.append_assoc]
      rfl
    · rename_i skipped
      rw [if_neg skipped] at step
      exact ⟨added, by rw [rules, step], placed⟩

theorem bakeAll_run : ∀ (ss : List Statement) (b b' : Baker), bakeAll b ss = .ok b' → Run b b' ss
  | [], b, b', baked => by
    cases baked
    exact Run.nil b
  | s :: rest, b, b', baked => by
    obtain ⟨b₁, first, later⟩ := bind_eq_ok.1 baked
    exact Run.cons (bake_step first) (bakeAll_run rest b₁ b' later)

end Baker


theorem foldl_max_offset_of_sorted :
    ∀ (rules : List Rule) (acc : Nat), (rules.map (·.offset)).Pairwise (· ≤ ·) →
      rules.foldl (fun acc r => max acc r.offset) acc = max acc ((rules.getLast?.map (·.offset)).getD 0)
  | [], acc, _ => by simp
  | [r], acc, _ => by simp
  | r :: r' :: rest, acc, sorted => by
    rw [List.map_cons, List.pairwise_cons] at sorted
    have below : r.offset ≤ ((r' :: rest).getLast?.map (·.offset)).getD 0 := by
      rw [List.getLast?_eq_some_getLast (List.cons_ne_nil r' rest)]
      exact sorted.1 _ (List.mem_map_of_mem (List.getLast_mem _))
    rw [List.foldl_cons, foldl_max_offset_of_sorted (r' :: rest) _ sorted.2, List.getLast?_cons_cons]
    omega

theorem offsets_of_forall₂ {R : Statement → Action → Prop} :
    ∀ {rules : List Rule} {es : List (Nat × Statement)},
      List.Forall₂ (fun r e => r.offset = e.1 ∧ R e.2 r.action) rules es →
      rules.map (·.offset) = es.map (·.1)
  | [], [], List.Forall₂.nil => rfl
  | _ :: _, _ :: _, List.Forall₂.cons placed rest => by
    rw [List.map_cons, List.map_cons, placed.1, offsets_of_forall₂ rest]

/-- Where baking a program puts its statements. -/
structure Scheduled (P : Program) (c : Compiled) : Prop where
  /-- One rule for each statement that makes one, in source order, at its running offset. -/
  rules : List.Forall₂ (fun r e => r.offset = e.1 ∧ e.2.Becomes c.objectName r.action) c.table.rules
    ((schedule 0 P.statements).filter (·.2.isRule))
  /-- The commands run on every tick, in source order. -/
  everyTick : c.everyTick = P.statements.filterMap Statement.everyTick?
  sorted : (c.table.rules.map (·.offset)).Pairwise (· ≤ ·)
  /-- The cycle ends at the sum of the waits. -/
  maxOffset : c.table.maxOffset = .num (waitTicks P.statements)
  /-- The end offset is that sum exactly when it lies beyond the last rule. -/
  endOffset : c.table.endOffset =
    if (c.table.rules.getLast?.map (·.offset)).getD 0 < waitTicks P.statements then
      some (.num (waitTicks P.statements))
    else none

theorem compileProgram_scheduled (P : Program) (c : Compiled) (compiled : compileProgram P = .ok c) :
    Scheduled P c := by
  obtain ⟨⟨o, a⟩, -, baking⟩ := bind_eq_ok.1 compiled
  obtain ⟨b, baked, done⟩ := bind_eq_ok.1 baking
  cases done
  have run := Baker.bakeAll_run P.statements _ b baked
  obtain ⟨added, rules, placed⟩ := run.rules
  simp only [List.append_nil] at rules
  have offsets := offsets_of_forall₂ placed
  -- The baker prepends, so the rules it added are in source order at the offsets of the
  -- schedule, which never decrease and never pass the sum of the waits.
  have sorted : (added.map (·.offset)).Pairwise (· ≤ ·) := by
    rw [offsets]
    exact (schedule_sorted 0 P.statements).sublist ((List.filter_sublist).map _)
  have within : ∀ r ∈ added, r.offset ≤ waitTicks P.statements := by
    intro r member
    have listed : r.offset ∈ ((schedule 0 P.statements).filter (·.2.isRule)).map (·.1) :=
      offsets ▸ List.mem_map_of_mem member
    obtain ⟨e, filtered, same⟩ := List.mem_map.1 listed
    have bounds := schedule_bounds 0 P.statements e (List.mem_filter.1 filtered).1
    omega
  have last : added.foldl (fun acc r => max acc r.offset) 0 = (added.getLast?.map (·.offset)).getD 0 := by
    rw [foldl_max_offset_of_sorted added 0 sorted, Nat.zero_max]
  have lastWithin : (added.getLast?.map (·.offset)).getD 0 ≤ waitTicks P.statements := by
    rcases found : added.getLast? with _ | r
    · exact Nat.zero_le _
    · exact within r (List.mem_of_getLast? found)
  have delay : b.delay = waitTicks P.statements := by
    rw [run.delay, Nat.zero_add]
  rw [rules, List.reverse_reverse]
  refine ⟨placed, ?_, sorted, ?_, ?_⟩
  · rw [run.everyTick, List.append_nil, List.reverse_reverse]
  · show RuleTable.maxOffset ⟨added, _⟩ = _
    -- The cycle ends at the later of the last rule and the sum of the waits, the sum itself.
    unfold RuleTable.maxOffset RuleTable.rulesMax
    dsimp only
    rw [last, delay]
    by_cases beyond : (added.getLast?.map (·.offset)).getD 0 < waitTicks P.statements
    · rw [if_pos beyond]
      dsimp only
      exact if_pos beyond
    · rw [if_neg beyond]
      dsimp only
      congr 1
      omega
  · show (if _ then _ else _) = _
    rw [last, delay]


/-- A door that opens: a rule, a wait, two rules and a command on every tick, and a trailing wait
that stretches the cycle to eight ticks. -/
def doorProgram : Program :=
  ⟨"door.anim", [.objectName "door" "open", .raw "say start" true, .wait 5, .item "lid" "stone",
    .raw "particle" false, .placeBlock 0 1 2 "stone", .wait 3]⟩

theorem compileProgram_scheduled_door :
    (compileProgram doorProgram).toBool = true ∧
      Scheduled doorProgram ((compileProgram doorProgram).toOption.getD default) :=
  have compiled : (compileProgram doorProgram).toBool = true := by decide +kernel
  ⟨compiled, compileProgram_scheduled doorProgram _ (eq_ok_of_toBool default compiled)⟩

end Keyframes
