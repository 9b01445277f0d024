import Keyframes.Proofs.Schedule

/-!
# What the baker tracks of each entity

Baking keeps, for every entity a program names, the translation, rotation and scale it has
reached, in double precision. `Statement.track` says what one statement does to them, entity by
entity: a translation or a scale resolves its coordinates against the entity's own values (a
relative coordinate adds to them), a rotation composes the rotation about its axis after the
entity's, a spawn starts the entity afresh at zero, the identity and one, and nothing else moves
anything; nothing is rounded. `trackSteps` runs this over a program from the start.

The baker keeps its entities in a list it updates in place and reads with a default
(`Baker.tracked`); baking a statement changes that reading exactly as `Statement.track` says
(`Baker.bake_tracks`), and every merge it emits holds the values its entity has just reached,
each rounded to single precision (`Statement.Emits`).

Main statement: `compileProgram_tracks`.
-/

namespace Keyframes
open Keyframes.Source Keyframes.Geometry Keyframes.Binary

/-! ## Tracking as a function of the entity -/

/-- Three coordinates resolved against the values they move. -/
def Source.Coords.resolve (c : Coords) (v : Vec3) : Vec3 :=
  ⟨c.x.resolve v.x, c.y.resolve v.y, c.z.resolve v.z⟩

/-- The transformations every entity has after a statement, from those it had before. -/
def Source.Statement.track (s : Statement) (m : String → Tracked) : Except Fault (String → Tracked) :=
  match s with
  | .translate e c _ => .ok (Function.update m e { m e with translation := c.resolve (m e).translation })
  | .scale e c _ => .ok (Function.update m e { m e with scale := c.resolve (m e).scale })
  | .rotate e axis angle _ => do
    let step ← ofAxisAngle ((Baker.components axis).map .float) (.float angle)
    let q ← mul (step.map .float) (m e).rotation
    return Function.update m e { m e with rotation := q }
  | .spawn _ _ e => .ok (Function.update m e {})
  | _ => .ok m

/-- The statements of a program, each with the transformations every entity has after it. -/
def trackSteps : (String → Tracked) → List Statement →
    Except Fault (List (Statement × (String → Tracked)))
  | _, [] => .ok []
  | m, s :: rest => do
    let m' ← s.track m
    return (s, m') :: (← trackSteps m' rest)

/-- What a statement of an object emits, given the transformations after it: a transformation
merges the values its entity has reached in the channel it moves, each rounded to single
precision; any other statement what it becomes. -/
def Source.Statement.Emits (o : String) (m : String → Tracked) : Statement → Action → Prop
  | .translate e _ d, a => ∃ vs, (Baker.components (m e).translation).mapM toSingle = .ok vs ∧
      a = .merge (entityTag o e) .translation vs (.num d) (.num 0)
  | .scale e _ d, a => ∃ vs, (Baker.components (m e).scale).mapM toSingle = .ok vs ∧
      a = .merge (entityTag o e) .scale vs (.num d) (.num 0)
  | .rotate e _ _ d, a => ∃ vs, (Baker.quaternionValues (m e).rotation).mapM toSingle = .ok vs ∧
      a = .merge (entityTag o e) .leftRotation vs (.num d) (.num 0)
  | s, a => s.Becomes o a

theorem trackSteps_statements : ∀ {m : String → Tracked} {ss : List Statement}
    {steps : List (Statement × (String → Tracked))}, trackSteps m ss = .ok steps →
      steps.map (·.1) = ss
  | _, [], steps, tracked => by
    cases tracked
    rfl
  | m, s :: rest, steps, tracked => by
    obtain ⟨m', -, tracked⟩ := bind_eq_ok.1 tracked
    obtain ⟨later, found, tracked⟩ := bind_eq_ok.1 tracked
    cases tracked
    rw [List.map_cons, trackSteps_statements found]

/-! ## The baker's list of entities -/

theorem lookup_replace (x e : String) (t : Tracked) : ∀ l : List (String × Tracked),
    (l.map fun p => if p.1 == e then (e, t) else p).lookup x =
      if x = e then (l.lookup e).map fun _ => t else l.lookup x
  | [] => by split <;> rfl
  | (k, v) :: rest => by
    have later := lookup_replace x e t rest
    rw [List.map_cons, List.lookup_cons]
    by_cases here : k = e
    · -- the head is the entity's entry, replaced
      subst here
      by_cases hit : x = k
      · subst hit
        simp
      · have miss : (x == k) = false := by simpa using hit
        simp only [beq_self_eq_true, if_true, miss, later, if_neg hit]
        rw [List.lookup_cons, miss]
    · have other : (k == e) = false := by simpa using here
      simp only [other, Bool.false_eq_true, if_false, List.lookup_cons, later]
      by_cases hit : x = e
      · subst hit
        have miss : (x == k) = false := by simpa using Ne.symm here
        simp only [miss, if_pos]
      · simp only [hit, if_false]

namespace Baker

/-- Tracking an entity sets what the baker reads of it, and of it only. -/
theorem tracked_track (b : Baker) (e : String) (t : Tracked) :
    (b.track e t).tracked = Function.update b.tracked e t := by
  funext x
  unfold track tracked
  by_cases hit : x = e
  · subst hit
    rw [Function.update_self]
    split
    · -- the entry of the entity is replaced in place
      rename_i present
      obtain ⟨p, kept, named⟩ := List.any_eq_true.1 present
      rw [lookup_replace, if_pos rfl]
      cases found : b.entities.lookup x with
      | none =>
        have := List.lookup_eq_none_iff.1 found p kept
        simp_all
      | some v => rfl
    · -- a fresh entity is appended
      rename_i absent
      have found : b.entities.lookup x = none := by
        rw [List.lookup_eq_none_iff]
        intro p kept
        have fresh : (p.1 == x) = false := by
          cases named : p.1 == x
          · rfl
          · exact absurd (List.any_eq_true.2 ⟨p, kept, named⟩) absent
        simp only [bne_iff_ne, ne_eq]
        intro same
        rw [same] at fresh
        simp at fresh
      simp [List.lookup_append, found]
  · rw [Function.update_of_ne hit]
    split
    · rw [lookup_replace, if_neg hit]
    · have miss : (x == e) = false := by simpa using hit
      simp [List.lookup_append, List.lookup_cons, miss]

theorem mapM_mapError {ε ε' α β : Type} (f : α → Except ε β) (g : ε → ε') {l : List α} {r : List β}
    (done : l.mapM (fun a => (f a).mapError g) = .ok r) : l.mapM f = .ok r := by
  rw [← mapError_mapM] at done
  exact mapError_eq_ok.1 done

/-- A merge the baker adds holds its values, each rounded to single precision. -/
theorem merge_emits {b b' : Baker} {e : String} {channel : Channel} {values : List Float} {d : Nat}
    (merged : b.merge e channel values d = .ok b') :
    ∃ vs, values.mapM toSingle = .ok vs ∧ b' = b.add (.merge (b.tag e) channel vs (.num d) (.num 0)) := by
  unfold merge at merged
  rcases made : Action.merge? (b.tag e) channel values (.num d) (.num 0) with err | a
  · rw [made] at merged
    cases merged
  · rw [made] at merged
    cases merged
    obtain ⟨vs, rounded, -, rfl⟩ := merge?_values made
    unfold singleValues at rounded
    split at rounded
    · exact ⟨vs, mapM_mapError toSingle _ rounded, rfl⟩
    · cases rounded

theorem tracked_add (b : Baker) (a : Action) : (b.add a).tracked = b.tracked := rfl

/-- Tracking an entity and merging values of it sets what the baker reads of the entity and adds
a merge of those values, each rounded to single precision, at the current offset. -/
theorem track_merge {b b' : Baker} {e : String} {t : Tracked} {channel : Channel}
    {values : List Float} {d : Nat} (merged : (b.track e t).merge e channel values d = .ok b') :
    b'.tracked = Function.update b.tracked e t ∧ b'.objectName = b.objectName ∧
      ∃ vs, values.mapM toSingle = .ok vs ∧
        b'.rules = ⟨b.delay, .merge (entityTag b.objectName e) channel vs (.num d) (.num 0)⟩ :: b.rules := by
  obtain ⟨vs, rounded, rfl⟩ := merge_emits merged
  exact ⟨by rw [tracked_add, tracked_track], by simp [add], vs, rounded, by simp [add, tag]⟩

/-- Baking a statement changes the tracked transformations as the statement says, and a
statement that makes a rule adds what it emits, given the transformations after it. -/
theorem bake_tracks {b b' : Baker} {s : Statement} (baked : b.bake s = .ok b') :
    s.track b.tracked = .ok b'.tracked ∧ b'.objectName = b.objectName ∧
      if s.isRule then ∃ a, s.Emits b.objectName b'.tracked a ∧ b'.rules = ⟨b.delay, a⟩ :: b.rules
      else b'.rules = b.rules := by
  cases s with
  | objectName o a =>
    cases baked
    exact ⟨rfl, rfl, rfl⟩
  | wait t =>
    cases baked
    exact ⟨rfl, rfl, rfl⟩
  | translate e c d | scale e c d =>
    obtain ⟨tracked, named, vs, rounded, rules⟩ := track_merge baked
    rw [tracked]
    refine ⟨rfl, named, ?_⟩
    simp only [Statement.isRule, ↓reduceIte]
    exact ⟨_, ⟨vs, by rwa [Function.update_self], rfl⟩, rules⟩
  | rotate e axis angle d =>
    -- the rotation about the axis is composed after the entity's before the merge
    obtain ⟨step, turned, baked⟩ := bind_eq_ok.1 baked
    obtain ⟨q, composed, baked⟩ := bind_eq_ok.1 baked
    obtain ⟨tracked, named, vs, rounded, rules⟩ := track_merge baked
    rw [tracked]
    refine ⟨by simp only [Statement.track, turned, composed, ok_bind]; rfl, named, ?_⟩
    simp only [Statement.isRule, ↓reduceIte]
    exact ⟨_, ⟨vs, by rwa [Function.update_self], rfl⟩, rules⟩
  | spawn source kind e =>
    cases baked
    rw [tracked_add, tracked_track]
    refine ⟨rfl, by simp [add], ?_⟩
    simp only [Statement.isRule, ↓reduceIte]
    exact ⟨_, rfl, by simp [add, tag]⟩
  | item | block | text | teleport | placeBlock =>
    cases baked
    refine ⟨rfl, rfl, ?_⟩
    simp only [Statement.isRule, ↓reduceIte]
    exact ⟨_, rfl, rfl⟩
  | raw command delayed =>
    cases delayed with
    | true =>
      cases baked
      refine ⟨rfl, rfl, ?_⟩
      simp only [Statement.isRule, ↓reduceIte]
      exact ⟨_, rfl, rfl⟩
    | false =>
      cases baked
      exact ⟨rfl, rfl, rfl⟩

/-- Baking a run of statements tracks the transformations statement by statement, and the rules it
adds are what the statements that make rules emit, given the transformations after each. -/
theorem bakeAll_tracks : ∀ (ss : List Statement) (b b' : Baker), bakeAll b ss = .ok b' →
    ∃ steps added, trackSteps b.tracked ss = .ok steps ∧ b'.rules = added.reverse ++ b.rules ∧
      List.Forall₂ (fun r x => x.1.Emits b.objectName x.2 r.action) added
        (steps.filter (·.1.isRule)) ∧ b'.objectName = b.objectName
  | [], b, b', baked => by
    cases baked
    exact ⟨[], [], rfl, rfl, .nil, rfl⟩
  | s :: rest, b, b', baked => by
    rw [bakeAll, bind_eq_ok] at baked
    obtain ⟨b₁, first, later⟩ := baked
    obtain ⟨tracked, named, rules⟩ := bake_tracks first
    obtain ⟨steps, added, tracks, rules', emitted, named'⟩ := bakeAll_tracks rest b₁ b' later
    have run : trackSteps b.tracked (s :: rest) = .ok ((s, b₁.tracked) :: steps) := by
      rw [trackSteps, tracked, ok_bind, tracks, ok_bind]
      rfl
    rw [named] at emitted
    by_cases rule : s.isRule = true
    · rw [if_pos rule] at rules
      obtain ⟨a, emits, added₁⟩ := rules
      refine ⟨(s, b₁.tracked) :: steps, ⟨b.delay, a⟩ :: added, run, ?_, ?_, by rw [named', named]⟩
      · rw [rules', added₁, List.reverse_cons, List.append_assoc]
        rfl
      · have kept : ((s, b₁.tracked) :: steps).filter (·.1.isRule) =
            (s, b₁.tracked) :: steps.filter (·.1.isRule) := List.filter_cons_of_pos rule
        rw [kept]
        exact .cons emits emitted
    · rw [if_neg rule] at rules
      refine ⟨(s, b₁.tracked) :: steps, added, run, ?_, ?_, by rw [named', named]⟩
      · rw [rules', rules]
      · have dropped : ((s, b₁.tracked) :: steps).filter (·.1.isRule) = steps.filter (·.1.isRule) :=
          List.filter_cons_of_neg rule
        rw [dropped]
        exact emitted

end Baker

/-! ## Baked programs -/

/-- Baking a program tracks every entity as `Statement.track` says, from zero, the identity and
one, and never rounds what it tracks: each statement that makes a rule emits, in source order,
what it emits given the transformations right after it, so a merge for an entity holds the values
that entity has reached in its channel, each rounded to single precision. -/
theorem compileProgram_tracks {P : Program} {c : Compiled} (compiled : compileProgram P = .ok c) :
    ∃ steps, trackSteps (fun _ => {}) P.statements = .ok steps ∧ steps.map (·.1) = P.statements ∧
      List.Forall₂ (fun r x => x.1.Emits c.objectName x.2 r.action) c.table.rules
        (steps.filter (·.1.isRule)) := by
  obtain ⟨⟨o, a⟩, -, baking⟩ := bind_eq_ok.1 compiled
  obtain ⟨b, baked, done⟩ := bind_eq_ok.1 baking
  cases done
  obtain ⟨steps, added, tracks, rules, emitted, -⟩ := Baker.bakeAll_tracks P.statements _ b baked
  -- the baker starts with no entity, so every entity starts afresh
  have fresh : Baker.tracked { objectName := o, path := P.path } = fun _ => {} := rfl
  rw [fresh] at tracks
  refine ⟨steps, tracks, trackSteps_statements tracks, ?_⟩
  show List.Forall₂ _ b.rules.reverse _
  rw [rules, List.append_nil, List.reverse_reverse]
  exact emitted

/-- A lid moved up from where it is, moved on, spawned afresh and scaled from its fresh scale. -/
def swingSource : String :=
  "object door:swing\nmove lid ~ ~1 0.1 4\nwait 2\nmove lid ~0.5 ~ ~ 2\n" ++
    "spawn lid block_display lid\nscale lid ~2 1 1 2\n"

/-- The program of the swinging lid. -/
def swingProgram : Program :=
  (parseSource swingSource "swing.dspa").toOption.getD default

/-- The baked swinging lid. -/
def swingCompiled : Compiled :=
  (compileProgram swingProgram).toOption.getD default

theorem compileProgram_tracks_swing :
    (compileProgram swingProgram).toBool = true ∧
      ∃ steps, trackSteps (fun _ => {}) swingProgram.statements = .ok steps ∧
        steps.map (·.1) = swingProgram.statements ∧
        List.Forall₂ (fun r x => x.1.Emits swingCompiled.objectName x.2 r.action)
          swingCompiled.table.rules (steps.filter (·.1.isRule)) := by
  have compiled : (compileProgram swingProgram).toBool = true := by decide +kernel
  exact ⟨compiled, compileProgram_tracks (eq_ok_of_toBool default compiled)⟩

end Keyframes
