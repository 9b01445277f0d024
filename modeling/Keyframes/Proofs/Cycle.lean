import Keyframes.Proofs.Tick

/-!
# The cycle of a timeline

Ticking one timeline again and again. With `M` the greatest offset of its table, the timer runs
`t, t + 1, …` and falls back to zero on the tick after it has reached `M`, so from any timer in
`[-1, M]` it cycles through `0, 1, …, M`; a timer set beyond `M` falls back on the next tick. The
flags keep their value until the first reset and are zero from then on. Every tick fires the
actions at its timer, so a cycle that starts at zero fires every rule once, by offset and, at
one offset, in the order of the table.

The world may refuse an action (a position payload without an offset, say); the tick then stops
there, with the registers as they were, and so does the run.

Main statement: `tick_cycle`.
-/

namespace Keyframes.RuleTable

/-! ## One cycle of a table -/

def cycleRules (t : RuleTable) : List Rule :=
  (List.range (t.maxOffset.toNat + 1)).flatMap fun o => t.rules.filter (·.offset = o)

theorem le_foldl_max (rules : List Rule) : ∀ acc : Nat,
    acc ≤ rules.foldl (fun acc r => max acc r.offset) acc ∧
      ∀ r ∈ rules, r.offset ≤ rules.foldl (fun acc r => max acc r.offset) acc := by
  induction rules with
  | nil => intro acc; simp
  | cons r rest ih =>
      intro acc
      obtain ⟨grows, bounds⟩ := ih (max acc r.offset)
      refine ⟨Nat.le_trans (Nat.le_max_left acc r.offset) grows, ?_⟩
      intro r' member
      rcases List.mem_cons.1 member with rfl | later
      · exact Nat.le_trans (Nat.le_max_right acc r'.offset) grows
      · exact bounds r' later

theorem offset_le_maxOffset (t : RuleTable) {r : Rule} (member : r ∈ t.rules) :
    r.offset ≤ t.maxOffset.toNat :=
  Nat.le_trans ((le_foldl_max t.rules 0).2 r member) (rulesMax_le_maxOffset t)

theorem buckets_perm : ∀ (N : Nat) (rules : List Rule), (∀ r ∈ rules, r.offset < N) →
    ((List.range N).flatMap fun o => rules.filter (·.offset = o)).Perm rules
  | 0, rules, below => by
      cases rules with
      | nil => exact List.Perm.refl _
      | cons r _ => exact absurd (below r List.mem_cons_self) (Nat.not_lt_zero _)
  | N + 1, rules, below => by
      -- The first `N` buckets hold the rules below `N`; the last holds those at `N`.
      rw [List.range_succ, List.flatMap_append, List.flatMap_singleton]
      have lower : ((List.range N).flatMap fun o => rules.filter (·.offset = o)) =
          (List.range N).flatMap fun o => (rules.filter (fun r => decide (r.offset < N))).filter (·.offset = o) := by
        apply List.flatMap_congr
        intro o member
        rw [List.filter_filter]
        apply List.filter_congr
        intro r _
        have : o < N := List.mem_range.1 member
        by_cases at_o : r.offset = o <;> simp [at_o, this]
      rw [lower]
      have split := List.filter_append_perm (fun r : Rule => decide (r.offset < N)) rules
      refine (List.Perm.append (buckets_perm N _ (fun r member => by simpa using (List.mem_filter.1 member).2)) ?_).trans split
      rw [List.filter_congr]
      intro r member
      have := below r member
      by_cases at_N : r.offset = N
      · simp [at_N]
      · simp [at_N]
        omega

theorem cycleRules_perm (t : RuleTable) : t.cycleRules.Perm t.rules :=
  buckets_perm _ t.rules fun _ member => Nat.lt_succ_of_le (offset_le_maxOffset t member)

theorem cycleRules_sorted (t : RuleTable) : t.cycleRules.Pairwise (·.offset ≤ ·.offset) := by
  unfold cycleRules
  rw [List.pairwise_flatMap]
  constructor
  · intro o _
    apply List.Pairwise.imp_of_mem _ (List.pairwise_of_forall (R := fun _ _ => True) (fun _ _ => trivial))
    intro a b first second _
    have atFirst : a.offset = o := of_decide_eq_true (List.mem_filter.1 first).2
    have atSecond : b.offset = o := of_decide_eq_true (List.mem_filter.1 second).2
    omega
  · apply List.Pairwise.imp _ List.pairwise_lt_range
    intro o o' earlier a first b second
    have atFirst : a.offset = o := of_decide_eq_true (List.mem_filter.1 first).2
    have atSecond : b.offset = o' := of_decide_eq_true (List.mem_filter.1 second).2
    omega

theorem flatMap_range_single {β : Type} (o : Nat) (items : List β) : ∀ N : Nat,
    ((List.range N).flatMap fun o' => if o' = o then items else []) = if o < N then items else []
  | 0 => by simp
  | N + 1 => by
      rw [List.range_succ, List.flatMap_append, List.flatMap_singleton, flatMap_range_single o items N]
      by_cases below : o < N
      · rw [if_pos below, if_neg (by omega), if_pos (by omega), List.append_nil]
      · by_cases at_N : N = o
        · rw [if_neg below, if_pos at_N, if_pos (by omega), List.nil_append]
        · rw [if_neg below, if_neg at_N, if_neg (by omega), List.nil_append]

theorem cycleRules_filter (t : RuleTable) (o : Nat) :
    t.cycleRules.filter (·.offset = o) = t.rules.filter (·.offset = o) := by
  unfold cycleRules
  rw [List.filter_flatMap]
  have inner : ∀ o', (t.rules.filter (·.offset = o')).filter (·.offset = o) =
      if o' = o then t.rules.filter (·.offset = o) else [] := by
    intro o'
    rw [List.filter_filter]
    split
    · rename_i same
      subst same
      apply List.filter_congr
      intro r _
      by_cases at_o : r.offset = o' <;> simp [at_o]
    · rename_i distinct
      rw [List.filter_eq_nil_iff]
      intro r _
      by_cases at_o : r.offset = o
      · simp [at_o, Ne.symm distinct]
      · simp [at_o]
  simp only [inner]
  rw [flatMap_range_single]
  split
  · rfl
  · rename_i beyond
    symm
    rw [List.filter_eq_nil_iff]
    intro r member at_o
    have := offset_le_maxOffset t member
    simp at at_o
    omega

theorem actionsAt_ofNat (t : RuleTable) (o : Nat) :
    t.actionsAt o = (t.rules.filter (·.offset = o)).map (·.action) := by
  rw [actionsAt_eq_actionsOf]
  unfold actionsOf
  congr 1
  apply List.filter_congr
  intro r _
  simp only [decide_eq_decide]
  exact Int.ofNat_inj

theorem actionsAt_eq_nil (t : RuleTable) (o : Int) :
    t.actionsAt o = [] ↔ ∀ r ∈ t.rules, (r.offset : Int) ≠ o := by
  rw [actionsAt_eq_actionsOf]
  unfold actionsOf
  rw [List.map_eq_nil_iff, List.filter_eq_nil_iff]
  simp

theorem actionsAt_cycle (t : RuleTable) :
    ((List.range (t.maxOffset.toNat + 1)).flatMap fun o : Nat => t.actionsAt o) =
      t.cycleRules.map (·.action) := by
  unfold cycleRules
  rw [List.map_flatMap]
  apply List.flatMap_congr
  intro o _
  rw [actionsAt_ofNat]

end Keyframes.RuleTable

namespace Keyframes.Play
open Keyframes.Json

/-! ## The timer -/

theorem emod_succ (x m : Int) (positive : 0 < m) :
    (x + 1) % m = if x % m + 1 = m then 0 else x % m + 1 := by
  have low := Int.emod_nonneg x (Int.ne_of_gt positive)
  have high := Int.emod_lt_of_pos x positive
  have shifted : (x + 1) % m = (x % m + 1) % m := by
    have parts : x + 1 = x % m + 1 + m * (x / m) := by
      rw [Int.add_right_comm, Int.emod_add_mul_ediv]
    rw [parts, Int.add_mul_emod_self_left]
  rw [shifted]
  split
  · rename_i full
    rw [full, Int.emod_self]
  · exact Int.emod_eq_of_lt (by omega) (by omega)

theorem nextTimer_iterate_of_le (maxOffset : Nat) (timer : Int) (below : timer ≤ maxOffset) :
    ∀ n : Nat, (nextTimer maxOffset)^[n] timer =
      if timer + n < 0 then timer + n else (timer + n) % (maxOffset + 1)
  | 0 => by
      split
      · simp
      · rename_i nonneg
        simp only [Function.iterate_zero, id, Int.natCast_zero, Int.add_zero] at nonneg ⊢
        exact (Int.emod_eq_of_lt (by omega) (by omega)).symm
  | n + 1 => by
      rw [Function.iterate_succ_apply', nextTimer_iterate_of_le maxOffset timer below n]
      unfold nextTimer
      by_cases negative : timer + n < 0
      · have notReached : ¬ (maxOffset : Int) ≤ timer + n := by omega
        rw [if_pos negative, if_neg notReached]
        by_cases still : timer + (n + 1 : Nat) < 0
        · rw [if_pos still]
          omega
        · rw [if_neg still]
          have zero : timer + (n + 1 : Nat) = 0 := by omega
          rw [zero, Int.zero_emod]
          omega
      · have nonneg : ¬ timer + (n + 1 : Nat) < 0 := by omega
        rw [if_neg negative, if_neg nonneg, show timer + (n + 1 : Nat) = timer + n + 1 by omega,
          emod_succ _ _ (by omega)]
        have high := Int.emod_lt_of_pos (timer + n) (show (0 : Int) < maxOffset + 1 by omega)
        by_cases reached : (maxOffset : Int) ≤ (timer + n) % (maxOffset + 1)
        · rw [if_pos reached, if_pos (by omega)]
        · rw [if_neg reached, if_neg (by omega)]

theorem nextTimer_iterate_of_gt (maxOffset : Nat) (timer : Int) (beyond : (maxOffset : Int) < timer)
    (n : Nat) : (nextTimer maxOffset)^[n + 1] timer = n % (maxOffset + 1) := by
  have reset : nextTimer maxOffset timer = 0 := by
    unfold nextTimer
    rw [if_pos (by omega)]
  rw [Function.iterate_succ_apply, reset, nextTimer_iterate_of_le maxOffset 0 (by omega) n,
    if_neg (by omega), Int.zero_add]

theorem nextTimer_iterate_cycle (maxOffset : Nat) (timer : Int) (low : -1 ≤ timer)
    (high : timer ≤ maxOffset) (n : Nat) :
    0 ≤ (nextTimer maxOffset)^[n + 1] timer ∧ (nextTimer maxOffset)^[n + 1] timer ≤ maxOffset ∧
      (nextTimer maxOffset)^[n + 1 + (maxOffset + 1)] timer = (nextTimer maxOffset)^[n + 1] timer ∧
      ((nextTimer maxOffset)^[n + 1] timer = 0 ↔ (maxOffset + 1 : Int) ∣ timer + (n + 1 : Nat)) := by
  have positive : (0 : Int) < maxOffset + 1 := by omega
  have started : ¬ timer + (n + 1 : Nat) < 0 := by omega
  have later : ¬ timer + (n + 1 + (maxOffset + 1) : Nat) < 0 := by omega
  rw [nextTimer_iterate_of_le maxOffset timer high, nextTimer_iterate_of_le maxOffset timer high,
    if_neg started, if_neg later]
  have period : timer + (n + 1 + (maxOffset + 1) : Nat) = timer + (n + 1 : Nat) + (maxOffset + 1) := by
    omega
  refine ⟨Int.emod_nonneg _ (by omega), ?_, ?_, ?_⟩
  · have := Int.emod_lt_of_pos (timer + (n + 1 : Nat)) positive
    omega
  · rw [period, Int.add_emod_right]
  · exact (Int.dvd_iff_emod_eq_zero).symm

theorem nextTimer_iterate_zero (maxOffset : Nat) (i : Nat) (within : i ≤ maxOffset) :
    (nextTimer maxOffset)^[i] 0 = i := by
  rw [nextTimer_iterate_of_le maxOffset 0 (by omega), if_neg (by omega), Int.zero_add,
    Int.emod_eq_of_lt (by omega) (by omega)]

/-! ## Runs of ticks -/

def flagsAfter (maxOffset : Nat) (timer : Int) (flags : Value) (n : Nat) : Value :=
  if ∃ i < n, (maxOffset : Int) ≤ (nextTimer maxOffset)^[i] timer then .int 0 else flags

theorem flagsAfter_succ (maxOffset : Nat) (timer : Int) (flags : Value) (n : Nat) :
    flagsAfter maxOffset timer flags (n + 1) =
      flagsAfter maxOffset (nextTimer maxOffset timer) (tickClock maxOffset (timer, flags)).2 n := by
  unfold flagsAfter tickClock
  by_cases reached : (maxOffset : Int) ≤ timer
  · have first : ∃ i < n + 1, (maxOffset : Int) ≤ (nextTimer maxOffset)^[i] timer :=
      ⟨0, Nat.zero_lt_succ n, reached⟩
    rw [if_pos first, if_pos reached]
    split <;> rfl
  · have shift : (∃ i < n + 1, (maxOffset : Int) ≤ (nextTimer maxOffset)^[i] timer) ↔
        ∃ i < n, (maxOffset : Int) ≤ (nextTimer maxOffset)^[i] (nextTimer maxOffset timer) := by
      constructor
      · rintro ⟨i, below, hit⟩
        cases i with
        | zero => exact absurd hit reached
        | succ i =>
            rw [Function.iterate_succ_apply] at hit
            exact ⟨i, by omega, hit⟩
      · rintro ⟨i, below, hit⟩
        exact ⟨i + 1, by omega, by rwa [Function.iterate_succ_apply]⟩
    rw [if_neg reached]
    simp only [shift]

def tickTimes (name : String) (t : RuleTable) (g : Value) : Nat → PlayM (List Outcome)
  | 0 => pure []
  | n + 1 => do
    let o ← tick name t g
    let os ← tickTimes name t g n
    pure (o :: os)

def cycleOutcome (name : String) (t : RuleTable) (timer : Int) : Outcome :=
  ⟨name, .int timer, .int (nextTimer t.maxOffset.toNat timer), t.actionsAt timer,
    decide ((t.maxOffset.toNat : Int) ≤ timer)⟩

def cycleOutcomes (name : String) (t : RuleTable) (timer : Int) (n : Nat) : List Outcome :=
  (List.range n).map fun i => cycleOutcome name t ((nextTimer t.maxOffset.toNat)^[i] timer)

def cycleDispatch (t : RuleTable) (timer : Int) (n : Nat) : List Action :=
  (List.range n).flatMap fun i => t.actionsAt ((nextTimer t.maxOffset.toNat)^[i] timer)

theorem cycleOutcomes_succ (name : String) (t : RuleTable) (timer : Int) (n : Nat) :
    cycleOutcomes name t timer (n + 1) =
      cycleOutcome name t timer :: cycleOutcomes name t (nextTimer t.maxOffset.toNat timer) n := by
  unfold cycleOutcomes
  rw [List.range_succ_eq_map, List.map_cons, List.map_map]
  rfl

theorem cycleDispatch_succ (t : RuleTable) (timer : Int) (n : Nat) :
    cycleDispatch t timer (n + 1) =
      t.actionsAt timer ++ cycleDispatch t (nextTimer t.maxOffset.toNat timer) n := by
  unfold cycleDispatch
  rw [List.range_succ_eq_map, List.flatMap_cons, List.flatMap_map]
  rfl

theorem tickTimes_succ_run (name : String) (t : RuleTable) (g : Value) (n : Nat) (p : Player) :
    (tickTimes name t g (n + 1)).run.run p =
      match (tick name t g).run.run p with
      | (.ok o, p₁) => match (tickTimes name t g n).run.run p₁ with
        | (.ok os, p₂) => (.ok (o :: os), p₂)
        | (.error e, p₂) => (.error e, p₂)
      | (.error e, p₁) => (.error e, p₁) := by
  rw [tickTimes, bind_run]
  rcases (tick name t g).run.run p with ⟨_ | o, p₁⟩
  · rfl
  · dsimp only
    rw [bind_run]
    rcases (tickTimes name t g n).run.run p₁ with ⟨_ | os, p₂⟩ <;> rfl

theorem tick_accepted (name : String) (t : RuleTable) (g : Value) (p : Player) (timer : Int)
    (flags : Value) (w : World) (current : p.registersOf name = ⟨.int timer, flags⟩)
    (accepted : (performAll (t.actionsAt timer)).run.run p.world = (.ok (), w)) :
    ∃ p₁, (tick name t g).run.run p = (.ok (cycleOutcome name t timer), p₁) ∧
      Ticked p p₁ name ⟨.int (nextTimer t.maxOffset.toNat timer),
        (tickClock t.maxOffset.toNat (timer, flags)).2⟩ w := by
  obtain ⟨events, ticked⟩ := tick_int_run name t g p timer flags current
  rw [accepted] at ticked
  have outcome : (⟨name, .int timer, .int (tickClock t.maxOffset.toNat (timer, flags)).1,
      t.actionsAt timer, decide ((t.maxOffset.toNat : Int) ≤ timer)⟩ : Outcome) =
      cycleOutcome name t timer := by
    rw [cycleOutcome, tickClock_fst]
  have clock : Registers.ofClock (tickClock t.maxOffset.toNat (timer, flags)) =
      ⟨.int (nextTimer t.maxOffset.toNat timer), (tickClock t.maxOffset.toNat (timer, flags)).2⟩ := by
    rw [Registers.ofClock, tickClock_fst]
  rw [outcome] at ticked
  have step := ticked_assign p name (.ofClock (tickClock t.maxOffset.toNat (timer, flags))) w events
  exact ⟨_, ticked, step.registers.trans clock, step.others, step.world, step.tables, step.gameTick⟩

theorem tickTimes_accepted (name : String) (t : RuleTable) (g : Value) :
    ∀ (n : Nat) (p : Player) (timer : Int) (flags : Value) (w : World),
      p.registersOf name = ⟨.int timer, flags⟩ →
      (performAll (cycleDispatch t timer n)).run.run p.world = (.ok (), w) →
      ∃ p', (tickTimes name t g n).run.run p = (.ok (cycleOutcomes name t timer n), p') ∧
        Ticked p p' name ⟨.int ((nextTimer t.maxOffset.toNat)^[n] timer),
          flagsAfter t.maxOffset.toNat timer flags n⟩ w
  | 0, p, timer, flags, w, current, accepted => by
      cases accepted
      refine ⟨p, rfl, ?_⟩
      have none : flagsAfter t.maxOffset.toNat timer flags 0 = flags := by
        simp [flagsAfter]
      rw [Function.iterate_zero, id, none, ← current]
      exact Ticked.refl p name
  | n + 1, p, timer, flags, w, current, accepted => by
      rw [cycleDispatch_succ, performAll_append_run] at accepted
      rcases first : (performAll (t.actionsAt timer)).run.run p.world with ⟨_ | _, w₁⟩
      · rw [first] at accepted
        cases accepted
      · rw [first] at accepted
        obtain ⟨p₁, ticked, step⟩ := tick_accepted name t g p timer flags w₁ current first
        obtain ⟨p', rest, later⟩ := tickTimes_accepted name t g n p₁ _ _ w step.registers
          (by rw [step.world]; exact accepted)
        refine ⟨p', ?_, ?_⟩
        · rw [tickTimes_succ_run, ticked]
          dsimp only
          rw [rest, cycleOutcomes_succ]
        · rw [Function.iterate_succ_apply, flagsAfter_succ]
          exact step.trans later

theorem tickTimes_refused (name : String) (t : RuleTable) (g : Value) :
    ∀ (n k : Nat) (p : Player) (timer : Int) (flags : Value) (w₀ w : World) (e : Fault), k < n →
      p.registersOf name = ⟨.int timer, flags⟩ →
      (performAll (cycleDispatch t timer k)).run.run p.world = (.ok (), w₀) →
      (performAll (t.actionsAt ((nextTimer t.maxOffset.toNat)^[k] timer))).run.run w₀ = (.error e, w) →
      ∃ p', (tickTimes name t g n).run.run p = (.error e, p') ∧
        Ticked p p' name ⟨.int ((nextTimer t.maxOffset.toNat)^[k] timer),
          flagsAfter t.maxOffset.toNat timer flags k⟩ w
  | 0, k, _, _, _, _, _, _, early, _, _, _ => absurd early (Nat.not_lt_zero k)
  | n + 1, 0, p, timer, flags, w₀, w, e, _, current, before, refused => by
      cases before
      obtain ⟨events, ticked⟩ := tick_int_run name t g p timer flags current
      rw [Function.iterate_zero, id] at refused
      rw [refused] at ticked
      refine ⟨{ p with world := w, events }, ?_, ?_⟩
      · rw [tickTimes_succ_run, ticked]
      · have none : flagsAfter t.maxOffset.toNat timer flags 0 = flags := by
          simp [flagsAfter]
        rw [Function.iterate_zero, id, none, ← current]
        exact ⟨rfl, fun _ _ => rfl, rfl, rfl, rfl⟩
  | n + 1, k + 1, p, timer, flags, w₀, w, e, below, current, before, refused => by
      rw [cycleDispatch_succ, performAll_append_run] at before
      rcases first : (performAll (t.actionsAt timer)).run.run p.world with ⟨_ | _, w₁⟩
      · rw [first] at before
        cases before
      · rw [first] at before
        obtain ⟨p₁, ticked, step⟩ := tick_accepted name t g p timer flags w₁ current first
        rw [Function.iterate_succ_apply] at refused
        obtain ⟨p', rest, later⟩ := tickTimes_refused name t g n k p₁ _ _ w₀ w e (by omega)
          step.registers (by rw [step.world]; exact before) refused
        refine ⟨p', ?_, ?_⟩
        · rw [tickTimes_succ_run, ticked]
          dsimp only
          rw [rest]
        · rw [Function.iterate_succ_apply, flagsAfter_succ]
          exact step.trans later

theorem length_cycleOutcomes (name : String) (t : RuleTable) (timer : Int) (n : Nat) :
    (cycleOutcomes name t timer n).length = n := by
  simp [cycleOutcomes]

theorem cycleOutcomes_add (name : String) (t : RuleTable) (timer : Int) (k m : Nat) :
    cycleOutcomes name t timer (k + m) =
      cycleOutcomes name t timer k ++
        cycleOutcomes name t ((nextTimer t.maxOffset.toNat)^[k] timer) m := by
  unfold cycleOutcomes
  rw [List.range_add, List.map_append, List.map_map]
  congr 1
  apply List.map_congr_left
  intro i _
  rw [Function.comp_apply, Nat.add_comm, Function.iterate_add_apply]

theorem cycle_window (name : String) (t : RuleTable) (timer : Int) (k : Nat)
    (atZero : (nextTimer t.maxOffset.toNat)^[k] timer = 0) :
    ((cycleOutcomes name t timer (k + (t.maxOffset.toNat + 1))).drop k).flatMap (·.fired) =
      t.cycleRules.map (·.action) := by
  rw [cycleOutcomes_add, List.drop_left' (length_cycleOutcomes name t timer k), atZero,
    ← RuleTable.actionsAt_cycle]
  unfold cycleOutcomes
  rw [List.flatMap_map]
  apply List.flatMap_congr
  intro i member
  rw [nextTimer_iterate_zero _ i (Nat.le_of_lt_succ (List.mem_range.1 member))]
  rfl

/-! ## The cycle law -/

/-- What ticking the timeline `name` of `p` again and again does, from the integer timer `timer`
and the flags `flags`, with `M` the greatest offset of its table:

* a run of `n` ticks that the world goes along with gives the outcomes of the cycle, leaves the
  timer at the `n`-th iterate of `nextTimer M`, the flags as they were until the first reset and
  zero after it, and has handed the world exactly the actions at each timer, in order;
* a run in which the world refuses an action at the tick `k` fails with the world's fault, the
  registers left as the first `k` ticks set them;
* the timer in closed form, from a timer at most `M` and from one beyond it;
* from a timer in `[-1, M]`, the timer stays in `[0, M]` after every tick, repeats every
  `M + 1` ticks and is zero exactly at the ticks that make `timer + n` a multiple of `M + 1`;
* the `M + 1` ticks from one where the timer is zero fire the rules of the table each once,
  ordered by offset and, at one offset, as the table lists them; a tick whose timer is the offset
  of no rule fires nothing. -/
structure CycleLaw (p : Player) (name : String) (t : RuleTable) (g : Value) (timer : Int)
    (flags : Value) : Prop where
  accepted : ∀ n w, (performAll (cycleDispatch t timer n)).run.run p.world = (.ok (), w) →
    ∃ p', (tickTimes name t g n).run.run p = (.ok (cycleOutcomes name t timer n), p') ∧
      Ticked p p' name ⟨.int ((nextTimer t.maxOffset.toNat)^[n] timer),
        flagsAfter t.maxOffset.toNat timer flags n⟩ w ∧
      w.calls = p.world.calls ++ cycleDispatch t timer n
  refused : ∀ n k w₀ w e, k < n →
    (performAll (cycleDispatch t timer k)).run.run p.world = (.ok (), w₀) →
    (performAll (t.actionsAt ((nextTimer t.maxOffset.toNat)^[k] timer))).run.run w₀ = (.error e, w) →
    ∃ p', (tickTimes name t g n).run.run p = (.error e, p') ∧
      Ticked p p' name ⟨.int ((nextTimer t.maxOffset.toNat)^[k] timer),
        flagsAfter t.maxOffset.toNat timer flags k⟩ w
  below : timer ≤ t.maxOffset.toNat → ∀ n : Nat, (nextTimer t.maxOffset.toNat)^[n] timer =
    if timer + n < 0 then timer + n else (timer + n) % (t.maxOffset.toNat + 1)
  beyond : (t.maxOffset.toNat : Int) < timer → ∀ n : Nat,
    (nextTimer t.maxOffset.toNat)^[n + 1] timer = n % (t.maxOffset.toNat + 1)
  cycling : -1 ≤ timer → timer ≤ t.maxOffset.toNat → ∀ n : Nat,
    0 ≤ (nextTimer t.maxOffset.toNat)^[n + 1] timer ∧
    (nextTimer t.maxOffset.toNat)^[n + 1] timer ≤ t.maxOffset.toNat ∧
    (nextTimer t.maxOffset.toNat)^[n + 1 + (t.maxOffset.toNat + 1)] timer =
      (nextTimer t.maxOffset.toNat)^[n + 1] timer ∧
    ((nextTimer t.maxOffset.toNat)^[n + 1] timer = 0 ↔
      (t.maxOffset.toNat + 1 : Int) ∣ timer + (n + 1 : Nat))
  window : ∀ k, (nextTimer t.maxOffset.toNat)^[k] timer = 0 →
    ((cycleOutcomes name t timer (k + (t.maxOffset.toNat + 1))).drop k).flatMap (·.fired) =
      t.cycleRules.map (·.action)
  once : t.cycleRules.Perm t.rules
  ordered : t.cycleRules.Pairwise (·.offset ≤ ·.offset)
  stable : ∀ o, t.cycleRules.filter (·.offset = o) = t.rules.filter (·.offset = o)
  quiet : ∀ o, t.actionsAt o = [] ↔ ∀ r ∈ t.rules, (r.offset : Int) ≠ o

theorem tick_cycle (p : Player) (name : String) (t : RuleTable) (g : Value) (timer : Int)
    (flags : Value) (start : p.registersOf name = ⟨.int timer, flags⟩) :
    CycleLaw p name t g timer flags where
  accepted n w agreed := by
    obtain ⟨p', run, ticked⟩ := tickTimes_accepted name t g n p timer flags w start agreed
    exact ⟨p', run, ticked, performAll_calls _ _ _ agreed⟩
  refused n k w₀ w e early before refusal :=
    tickTimes_refused name t g n k p timer flags w₀ w e early start before refusal
  below low := nextTimer_iterate_of_le _ timer low
  beyond high := nextTimer_iterate_of_gt _ timer high
  cycling low high := nextTimer_iterate_cycle _ timer low high
  window k atZero := cycle_window name t timer k atZero
  once := t.cycleRules_perm
  ordered := t.cycleRules_sorted
  stable := t.cycleRules_filter
  quiet := t.actionsAt_eq_nil

theorem tick_cycle_fresh : ({} : Player).registersOf "a" = ⟨.int 0, .int 0⟩ ∧
    CycleLaw {} "a" ⟨[⟨1, .raw "say one"⟩, ⟨1, .raw "say again"⟩], some (.num 3)⟩ (.int 0) 0 (.int 0) :=
  ⟨rfl, tick_cycle {} "a" ⟨[⟨1, .raw "say one"⟩, ⟨1, .raw "say again"⟩], some (.num 3)⟩ (.int 0) 0 (.int 0) rfl⟩

/-- A player whose world holds one entity tagged `e`. -/
def taggedPlayer : Player :=
  { world := { entities := [{ id := 1, kind := .blockDisplay, tags := [.str "e"], position := origin }],
               nextId := 2 } }

/-- A table that moves the entities tagged `e` at offset zero by a payload without an offset. -/
def offsetlessTable : RuleTable := ⟨[⟨0, .setState "e" .position []⟩], some (.num 3)⟩

/-- The world refuses the move, so the tick fails and the timer stays at zero, one short of what
a tick from zero in a cycle of four gives. -/
theorem refused_tick_keeps_timer :
    ((tick "a" offsetlessTable (.int 0)).run.run taggedPlayer).1.toBool = false ∧
      ((tick "a" offsetlessTable (.int 0)).run.run taggedPlayer).2.registersOf "a" = ⟨.int 0, .int 0⟩ ∧
      nextTimer offsetlessTable.maxOffset.toNat 0 = 1 :=
  ⟨by decide, rfl, rfl⟩

end Keyframes.Play
