import Keyframes.Proofs.Tick
import Keyframes.Proofs.Except

/-!
# Many timelines, as the tick rule sees them

A player holds many timelines, but the tick rule of each reads and writes only its own table and
registers. `Model` keeps just that: the game ticks played, the tables in order of registration
and the registers of every name, with neither the world nor the events. Its operations
(`Model.exec`) are those a caller has on a player (`Op`): registering a table, looking a
timeline up, writing a timer or flags, a bare tick of one timeline, one game tick, several.

A game tick of the model applies the tick rule once to each registered timeline, every one from
the registers the game tick started with (`settle` collects what they left).

Main statements:

* `Model.step_timelines`: a game tick ticks the registered timelines in order of registration,
  and no other name;
* `Model.execAll_gameTick`: the game tick count grows by the game ticks played, and by nothing
  else;
* `Model.execAll_only`: every timeline moves as it would alone (`Model.only`), under the
  operations that bear on it (`Op.reaches`).
-/

namespace Keyframes.Play
open Keyframes.Json

/-! ## Tables by name -/

theorem assign_keys {α : Type} (entries : List (String × α)) (key : String) (a : α) :
    (assign entries key a).map (·.1) =
      if entries.any (·.1 == key) then entries.map (·.1) else entries.map (·.1) ++ [key] := by
  unfold assign
  split
  · rw [List.map_map]
    apply List.map_congr_left
    intro e _
    by_cases same : e.1 = key
    · simp [same]
    · simp [same]
  · rw [List.map_append]
    rfl

theorem assign_nodup {α : Type} {entries : List (String × α)} (key : String) (a : α)
    (distinct : (entries.map (·.1)).Nodup) : ((assign entries key a).map (·.1)).Nodup := by
  rw [assign_keys]
  split
  · exact distinct
  · rename_i absent
    refine List.nodup_append.2 ⟨distinct, by simp, ?_⟩
    intro x member y named same
    rw [List.mem_singleton] at named
    obtain ⟨e, owned, rfl⟩ := List.mem_map.1 member
    exact absent (List.any_eq_true.2 ⟨e, owned, by simp [same, named]⟩)

theorem assign_filter_self {α : Type} (entries : List (String × α)) (x : String) (a : α) :
    (assign entries x a).filter (·.1 == x) = assign (entries.filter (·.1 == x)) x a := by
  unfold assign
  by_cases present : entries.any (·.1 == x)
  · have kept : (entries.filter (·.1 == x)).any (·.1 == x) := by
      obtain ⟨e, member, named⟩ := List.any_eq_true.1 present
      exact List.any_eq_true.2 ⟨e, List.mem_filter.2 ⟨member, named⟩, named⟩
    rw [if_pos present, if_pos kept, List.filter_map]
    congr 1
    apply List.filter_congr
    intro e _
    by_cases same : e.1 = x <;> simp [same]
  · have absent : ¬ (entries.filter (·.1 == x)).any (·.1 == x) := by
      intro found
      obtain ⟨e, member, named⟩ := List.any_eq_true.1 found
      exact present (List.any_eq_true.2 ⟨e, (List.mem_filter.1 member).1, named⟩)
    rw [if_neg present, if_neg absent, List.filter_append]
    simp

theorem assign_filter_other {α : Type} (entries : List (String × α)) {name x : String} (a : α)
    (other : name ≠ x) :
    (assign entries name a).filter (·.1 == x) = entries.filter (·.1 == x) := by
  unfold assign
  split
  · rw [List.filter_map]
    have unnamed : ∀ e : String × α, (e.1 == x) = true → e.1 ≠ name := by
      intro e named same
      exact other (same ▸ beq_iff_eq.1 named)
    rw [List.filter_congr (q := (·.1 == x)) (fun e _ => by
      by_cases same : e.1 = name <;> simp [same])]
    calc (entries.filter (·.1 == x)).map (fun e => if e.1 == name then (name, a) else e)
        = (entries.filter (·.1 == x)).map id := by
          apply List.map_congr_left
          intro e member
          simp [unnamed e (List.mem_filter.1 member).2]
      _ = entries.filter (·.1 == x) := List.map_id _
  · rw [List.filter_append]
    simp [other]

/-! ## Many ticks at once -/

/-- The registers after ticks that gave `ticks`: the registers each tick left for its timeline,
the old ones for every other. -/
def settle (ticks : List (Outcome × Registers)) (regs : String → Registers) (name : String) : Registers :=
  ((ticks.find? (·.1.timeline == name)).map (·.2)).getD (regs name)

theorem mapM_tickRule_timelines (regs : String → Registers) :
    ∀ (ts : List (String × RuleTable)) (ticks : List (Outcome × Registers)),
      ts.mapM (fun e => tickRule e.1 e.2 (regs e.1)) = .ok ticks →
      ticks.map (·.1.timeline) = ts.map (·.1)
  | [], ticks, mapped => by
      cases mapped
      rfl
  | e :: rest, ticks, mapped => by
      rw [List.mapM_cons] at mapped
      rcases ruled : tickRule e.1 e.2 (regs e.1) with err | ⟨o, after⟩
      · rw [ruled] at mapped
        cases mapped
      · rw [ruled] at mapped
        rcases others : rest.mapM (fun e => tickRule e.1 e.2 (regs e.1)) with err | ticks'
        · rw [others] at mapped
          cases mapped
        · rw [others] at mapped
          cases mapped
          rw [List.map_cons, List.map_cons, tickRule_timeline ruled,
            mapM_tickRule_timelines regs rest ticks' others]

theorem mapM_tickRule_filter (regs regs' : String → Registers) (x : String) (same : regs' x = regs x) :
    ∀ (ts : List (String × RuleTable)) (ticks : List (Outcome × Registers)),
      ts.mapM (fun e => tickRule e.1 e.2 (regs e.1)) = .ok ticks →
      (ts.filter (·.1 == x)).mapM (fun e => tickRule e.1 e.2 (regs' e.1)) =
        .ok (ticks.filter (·.1.timeline == x))
  | [], ticks, mapped => by
    cases mapped
    rfl
  | e :: rest, ticks, mapped => by
    rw [List.mapM_cons] at mapped
    obtain ⟨tick₁, ruled, later⟩ := bind_eq_ok.1 mapped
    obtain ⟨ticks', others, done⟩ := bind_eq_ok.1 later
    cases done
    have filtered := mapM_tickRule_filter regs regs' x same rest ticks' others
    rw [List.filter_cons, List.filter_cons, tickRule_timeline ruled]
    by_cases named : e.1 = x
    · subst named
      have ruled' : tickRule e.1 e.2 (regs' e.1) = .ok tick₁ := by rw [same, ruled]
      simp only [beq_self_eq_true, if_true]
      rw [List.mapM_cons, ruled', ok_bind, filtered]
      rfl
    · simp only [beq_iff_eq, named, if_false]
      exact filtered

theorem settle_filter (ticks : List (Outcome × Registers)) (regs : String → Registers) (x y : String) :
    settle (ticks.filter (·.1.timeline == x)) (fun y => if y = x then regs x else {}) y =
      if y = x then settle ticks regs x else {} := by
  unfold settle
  by_cases same : y = x
  · subst same
    simp only [List.find?_filter, and_self, Bool.decide_eq_true, if_true]
  · have absent : (ticks.filter (·.1.timeline == x)).find? (·.1.timeline == y) = none := by
      rw [List.find?_eq_none]
      intro tick member named
      rw [beq_iff_eq.1 (List.mem_filter.1 member).2] at named
      exact same (beq_iff_eq.1 named).symm
    rw [absent]
    simp [same]

/-! ## Operations -/

/-- What a caller does to a player: register a table, look a timeline up, write its timer or its
flags, tick it outside a game tick, play one game tick, or play several. -/
inductive Op where
  | register (name : String) (t : RuleTable)
  | lookup (name : String)
  | setTimer (name : String) (v : Value)
  | setFlags (name : String) (v : Value)
  | tick (name : String) (gameTick : Value)
  | step
  | run (n : Nat)

/-- The timeline an operation names; none for a game tick, which reaches every timeline. -/
def Op.timeline? : Op → Option String
  | .register name _ | .lookup name | .setTimer name _ | .setFlags name _ | .tick name _ => some name
  | .step | .run _ => none

/-- Whether an operation can bear on timeline `x`: it names `x`, or it is a game tick. -/
def Op.reaches (x : String) (op : Op) : Bool :=
  match op.timeline? with
  | some name => name == x
  | none => true

/-- The game ticks an operation plays: one for a step, `n` for a run of `n`, none otherwise. -/
def Op.gameTicks : Op → Nat
  | .step => 1
  | .run n => n
  | _ => 0

/-! ## The model -/

/-- The player as the tick rule sees it: game ticks played, tables in order of registration and
the registers of every name. Neither the world nor the events are part of it. -/
structure Model where
  gameTick : Nat
  tables : List (String × RuleTable)
  regs : String → Registers

namespace Model

def table? (m : Model) (name : String) : Option RuleTable :=
  (m.tables.find? (·.1 == name)).map (·.2)

def write (m : Model) (name : String) (r : Registers) : Model :=
  { m with regs := Function.update m.regs name r }

/-- One game tick: the tick rule once for every registered timeline, from the registers the
game tick started with, in order of registration. -/
def step (m : Model) : Except Fault (List Outcome × Model) := do
  let ticks ← m.tables.mapM fun e => tickRule e.1 e.2 (m.regs e.1)
  pure (ticks.map (·.1), { m with gameTick := m.gameTick + 1, regs := settle ticks m.regs })

def steps : Nat → Model → Except Fault (List Outcome × Model)
  | 0, m => .ok ([], m)
  | n + 1, m => do
    let (os, m₁) ← m.step
    let (os', m₂) ← steps n m₁
    pure (os ++ os', m₂)

/-- An operation on the model. Registering replaces the table in place or appends it and leaves
every register alone; looking a timeline up changes nothing. -/
def exec : Op → Model → Except Fault (List Outcome × Model)
  | .register name t, m => .ok ([], { m with tables := assign m.tables name t })
  | .lookup _, m => .ok ([], m)
  | .setTimer name v, m => .ok ([], m.write name { m.regs name with timer := v })
  | .setFlags name v, m => .ok ([], m.write name { m.regs name with flags := v })
  | .tick name _, m =>
    match m.table? name with
    | some t => do
      let (o, r) ← tickRule name t (m.regs name)
      pure ([o], m.write name r)
    | none => .error (.missingKey (Text.quote name))
  | .step, m => m.step
  | .run n, m => m.steps n

def execAll : List Op → Model → Except Fault (List Outcome × Model)
  | [], m => .ok ([], m)
  | op :: rest, m => do
    let (os, m₁) ← m.exec op
    let (os', m₂) ← execAll rest m₁
    pure (os ++ os', m₂)

theorem step_of_mapM {m : Model} {ticks : List (Outcome × Registers)}
    (mapped : m.tables.mapM (fun e => tickRule e.1 e.2 (m.regs e.1)) = .ok ticks) :
    m.step = .ok (ticks.map (·.1), { m with gameTick := m.gameTick + 1, regs := settle ticks m.regs }) := by
  unfold Model.step
  rw [mapped]
  rfl

theorem step_tables {m m' : Model} {os : List Outcome} (stepped : m.step = .ok (os, m')) :
    m'.tables = m.tables := by
  unfold step at stepped
  rcases ticked : m.tables.mapM (fun e => tickRule e.1 e.2 (m.regs e.1)) with e | ticks
  · rw [ticked] at stepped
    cases stepped
  · rw [ticked] at stepped
    cases stepped
    rfl

theorem steps_tables : ∀ (n : Nat) (m m' : Model) (os : List Outcome), steps n m = .ok (os, m') →
    m'.tables = m.tables
  | 0, m, m', os, stepped => by
    cases stepped
    rfl
  | n + 1, m, m', os, stepped => by
    obtain ⟨⟨os₁, m₁⟩, first, later⟩ := bind_eq_ok.1 stepped
    obtain ⟨⟨os₂, m₂⟩, rest, done⟩ := bind_eq_ok.1 later
    cases done
    rw [steps_tables n m₁ m' os₂ rest, step_tables first]

theorem exec_nodup {op : Op} {m m' : Model} {os : List Outcome} (done : m.exec op = .ok (os, m'))
    (distinct : (m.tables.map (·.1)).Nodup) : (m'.tables.map (·.1)).Nodup := by
  cases op with
  | register name t =>
    cases done
    exact assign_nodup name t distinct
  | lookup name =>
    cases done
    exact distinct
  | setTimer name v =>
    cases done
    exact distinct
  | setFlags name v =>
    cases done
    exact distinct
  | tick name g =>
    dsimp only [exec] at done
    rcases found : m.table? name with _ | t
    · rw [found] at done
      cases done
    · rw [found] at done
      obtain ⟨_, -, done⟩ := bind_eq_ok.1 done
      cases done
      exact distinct
  | step =>
    rw [step_tables done]
    exact distinct
  | run n =>
    rw [steps_tables n m m' os done]
    exact distinct

theorem step_gameTick {m m' : Model} {os : List Outcome} (stepped : m.step = .ok (os, m')) :
    m'.gameTick = m.gameTick + 1 := by
  obtain ⟨ticks, -, done⟩ := bind_eq_ok.1 stepped
  cases done
  rfl

theorem steps_gameTick : ∀ (n : Nat) (m m' : Model) (os : List Outcome), steps n m = .ok (os, m') →
    m'.gameTick = m.gameTick + n
  | 0, m, m', os, done => by
    cases done
    rfl
  | n + 1, m, m', os, done => by
    obtain ⟨⟨os₁, m₁⟩, first, later⟩ := bind_eq_ok.1 done
    obtain ⟨⟨os₂, m₂⟩, rest, finished⟩ := bind_eq_ok.1 later
    cases finished
    rw [steps_gameTick n m₁ m' os₂ rest, step_gameTick first]
    omega

theorem exec_gameTick {op : Op} {m m' : Model} {os : List Outcome} (done : m.exec op = .ok (os, m')) :
    m'.gameTick = m.gameTick + op.gameTicks := by
  cases op with
  | step => exact step_gameTick done
  | run n => exact steps_gameTick n m m' os done
  | tick name g =>
    dsimp only [exec] at done
    rcases found : m.table? name with _ | t
    · rw [found] at done
      cases done
    · rw [found] at done
      obtain ⟨_, -, finished⟩ := bind_eq_ok.1 done
      cases finished
      rfl
  | register | lookup | setTimer | setFlags =>
    cases done
    rfl

theorem execAll_gameTick : ∀ (ops : List Op) (m m' : Model) (os : List Outcome),
    m.execAll ops = .ok (os, m') → m'.gameTick = m.gameTick + (ops.map Op.gameTicks).sum
  | [], m, m', os, done => by
    cases done
    rfl
  | op :: rest, m, m', os, done => by
    obtain ⟨⟨os₁, m₁⟩, first, later⟩ := bind_eq_ok.1 done
    obtain ⟨⟨os₂, m₂⟩, others, finished⟩ := bind_eq_ok.1 later
    cases finished
    rw [execAll_gameTick rest m₁ m' os₂ others, exec_gameTick first, List.map_cons, List.sum_cons]
    omega

theorem step_timelines {m m' : Model} {os : List Outcome} (stepped : m.step = .ok (os, m')) :
    os.map (·.timeline) = m.tables.map (·.1) ∧ ∀ y ∉ m.tables.map (·.1), m'.regs y = m.regs y := by
  obtain ⟨ticks, mapped, done⟩ := bind_eq_ok.1 stepped
  cases done
  have timelines := mapM_tickRule_timelines m.regs m.tables ticks mapped
  refine ⟨by rw [List.map_map]; exact timelines, ?_⟩
  intro y unregistered
  have absent : ticks.find? (·.1.timeline == y) = none := by
    rw [List.find?_eq_none]
    intro tick member named
    rw [← timelines] at unregistered
    exact unregistered (beq_iff_eq.1 named ▸ List.mem_map_of_mem member)
  show settle ticks m.regs y = m.regs y
  rw [settle, absent]
  rfl

/-! ## One timeline alone -/

/-- The model as timeline `x` sees it: its table and its registers, nothing of the others. -/
def only (m : Model) (x : String) : Model :=
  { gameTick := m.gameTick, tables := m.tables.filter (·.1 == x)
    regs := fun y => if y = x then m.regs x else {} }

theorem only_table? (m : Model) (x : String) : (m.only x).table? x = m.table? x := by
  unfold table? only
  simp only [List.find?_filter, and_self, Bool.decide_eq_true]

theorem only_regs_self (m : Model) (x : String) : (m.only x).regs x = m.regs x := by
  simp [only]

theorem write_only_self (m : Model) (x : String) (r : Registers) :
    (m.write x r).only x = (m.only x).write x r := by
  simp only [only, write, mk.injEq, true_and]
  funext y
  by_cases same : y = x <;> simp [same]

theorem write_only_other (m : Model) {name x : String} (r : Registers) (other : name ≠ x) :
    (m.write name r).only x = m.only x := by
  simp only [only, write, mk.injEq, true_and]
  funext y
  by_cases same : y = x <;> simp [same, Ne.symm other]

theorem step_only {m m' : Model} {os : List Outcome} (x : String) (stepped : m.step = .ok (os, m')) :
    (m.only x).step = .ok (os.filter (·.timeline == x), m'.only x) := by
  unfold step at stepped
  obtain ⟨ticks, mapped, done⟩ := bind_eq_ok.1 stepped
  cases done
  have filtered := mapM_tickRule_filter m.regs (m.only x).regs x (only_regs_self m x) m.tables ticks mapped
  have settled : settle (ticks.filter (·.1.timeline == x)) (m.only x).regs =
      fun y => if y = x then settle ticks m.regs x else {} :=
    funext (settle_filter ticks m.regs x)
  rw [step_of_mapM filtered, settled, List.filter_map]
  rfl

theorem steps_only (x : String) : ∀ (n : Nat) (m m' : Model) (os : List Outcome),
    steps n m = .ok (os, m') → steps n (m.only x) = .ok (os.filter (·.timeline == x), m'.only x)
  | 0, m, m', os, done => by
    cases done
    rfl
  | n + 1, m, m', os, done => by
    obtain ⟨⟨os₁, m₁⟩, first, later⟩ := bind_eq_ok.1 done
    obtain ⟨⟨os₂, m₂⟩, rest, finished⟩ := bind_eq_ok.1 later
    cases finished
    rw [steps, step_only x first, ok_bind]
    dsimp only
    rw [steps_only x n m₁ m' os₂ rest, ok_bind, List.filter_append]
    rfl

theorem exec_only {op : Op} {m m' : Model} {os : List Outcome} (x : String)
    (done : m.exec op = .ok (os, m')) :
    if op.reaches x then (m.only x).exec op = .ok (os.filter (·.timeline == x), m'.only x)
    else m'.only x = m.only x ∧ os.filter (·.timeline == x) = [] := by
  cases op with
  | register name t =>
    cases done
    by_cases named : name = x
    · subst named
      simp only [Op.reaches, Op.timeline?, beq_self_eq_true, if_true]
      simp only [exec, only, assign_filter_self]
      rfl
    · simp only [Op.reaches, Op.timeline?, beq_iff_eq, named, if_false]
      -- Registering another name keeps the table of `x` where it stood.
      simp only [only, assign_filter_other m.tables t named]
      exact ⟨trivial, rfl⟩
  | lookup name =>
    cases done
    split
    · rfl
    · exact ⟨rfl, rfl⟩
  | setTimer name v =>
    cases done
    by_cases named : name = x
    · subst named
      simp only [Op.reaches, Op.timeline?, beq_self_eq_true, if_true]
      rw [write_only_self, exec, only_regs_self]
      rfl
    · simp only [Op.reaches, Op.timeline?, beq_iff_eq, named, if_false]
      exact ⟨write_only_other m _ named, rfl⟩
  | setFlags name v =>
    cases done
    by_cases named : name = x
    · subst named
      simp only [Op.reaches, Op.timeline?, beq_self_eq_true, if_true]
      rw [write_only_self, exec, only_regs_self]
      rfl
    · simp only [Op.reaches, Op.timeline?, beq_iff_eq, named, if_false]
      exact ⟨write_only_other m _ named, rfl⟩
  | tick name g =>
    dsimp only [exec] at done
    rcases found : m.table? name with _ | t
    · rw [found] at done
      cases done
    · rw [found] at done
      obtain ⟨⟨o, r⟩, ruled, finished⟩ := bind_eq_ok.1 done
      cases finished
      have timeline : o.timeline = name := tickRule_timeline ruled
      by_cases named : name = x
      · subst named
        simp only [Op.reaches, Op.timeline?, beq_self_eq_true, if_true]
        rw [exec, only_table?, found]
        dsimp only
        have kept : [o].filter (·.timeline == name) = [o] := by simp [timeline]
        rw [only_regs_self, ruled, ok_bind, write_only_self, kept]
        rfl
      · simp only [Op.reaches, Op.timeline?, beq_iff_eq, named, if_false]
        exact ⟨write_only_other m r named, by simp [timeline, named]⟩
  | step => exact step_only x done
  | run n => exact steps_only x n m m' os done

theorem execAll_only (x : String) : ∀ (ops : List Op) (m m' : Model) (os : List Outcome),
    m.execAll ops = .ok (os, m') →
    (m.only x).execAll (ops.filter (Op.reaches x)) = .ok (os.filter (·.timeline == x), m'.only x)
  | [], m, m', os, done => by
    cases done
    rfl
  | op :: rest, m, m', os, done => by
    obtain ⟨⟨os₁, m₁⟩, first, later⟩ := bind_eq_ok.1 done
    obtain ⟨⟨os₂, m₂⟩, others, finished⟩ := bind_eq_ok.1 later
    cases finished
    have projected := exec_only x first
    have rest_only := execAll_only x rest m₁ m' os₂ others
    -- An operation that does not reach `x` drops out of the filtered run and leaves `x` alone.
    rw [List.filter_append]
    by_cases reaches : op.reaches x
    · rw [if_pos reaches] at projected
      rw [List.filter_cons_of_pos reaches, execAll, projected, ok_bind]
      dsimp only
      rw [rest_only]
      rfl
    · rw [if_neg reaches] at projected
      obtain ⟨unchanged, silent⟩ := projected
      rw [List.filter_cons_of_neg reaches, silent, List.nil_append, ← unchanged]
      exact rest_only

end Model

end Keyframes.Play
