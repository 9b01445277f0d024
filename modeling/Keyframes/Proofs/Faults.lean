import Keyframes.Proofs.Tracking
import Keyframes.Proofs.Schema

/-!
# When a program compiles

Compiling a program names it, then bakes its statements one after another. Naming fails when the
program has no object line and the stem of its file name is not a name. Baking a statement fails
in two ways: a merge whose values leave the single range, refused as a bad input with the entity
and the offset; or a rotation about an axis whose length is zero in double precision, or by an
angle whose half in radians is infinite. The axis the reader accepts is not the zero vector, but
its length can still be zero: the squares of tiny components underflow (`compileProgram_tinyAxis`).

Said through what the baker tracks (`Statement.track`, `trackSteps`): a program compiles exactly
when it is named, tracking succeeds, and every value a statement merges rounds to a finite single
(`Statement.merged`). Composing a rotation never fails, since every tracked rotation is four
doubles (`Rotations`).

Main statement: `compileProgram_faults`.
-/

namespace Keyframes
open Keyframes.Source Keyframes.Geometry Keyframes.Binary

/-! ## Rotations -/

/-- A rotation as the baker tracks it: four doubles, vector part first. -/
def IsQuaternion (q : List Number) : Prop :=
  ∃ x y z w, q = [.float x, .float y, .float z, .float w]

/-- Transformations whose rotations are all as the baker tracks them. -/
def Rotations (m : String → Tracked) : Prop :=
  ∀ e, IsQuaternion (m e).rotation

theorem rotations_fresh : Rotations fun _ => {} :=
  fun _ => ⟨_, _, _, _, rfl⟩

theorem Rotations.update {m : String → Tracked} (rotations : Rotations m) (e : String)
    {t : Tracked} (quaternion : IsQuaternion t.rotation) : Rotations (Function.update m e t) := by
  intro x
  by_cases same : x = e
  · subst same
    rw [Function.update_self]
    exact quaternion
  · rw [Function.update_of_ne same]
    exact rotations x

/-- Composing a rotation of four doubles after a tracked one never fails. -/
theorem mul_quaternion {step : List Float} {q : List Number}
    (four : ∃ a b c d, step = [a, b, c, d]) (rotation : IsQuaternion q) :
    ∃ r, mul (step.map .float) q = .ok r ∧ IsQuaternion r := by
  obtain ⟨a, b, c, d, rfl⟩ := four
  obtain ⟨x, y, z, w, rfl⟩ := rotation
  exact ⟨_, rfl, _, _, _, _, rfl⟩

theorem mul_length {a q r : List Number} (composed : mul a q = .ok r) : r.length = 4 := by
  unfold mul at composed
  obtain ⟨a', -, composed⟩ := bind_eq_ok.1 composed
  obtain ⟨q', -, composed⟩ := bind_eq_ok.1 composed
  split at composed
  · obtain ⟨x, -, composed⟩ := bind_eq_ok.1 composed
    obtain ⟨y, -, composed⟩ := bind_eq_ok.1 composed
    obtain ⟨z, -, composed⟩ := bind_eq_ok.1 composed
    obtain ⟨w, -, composed⟩ := bind_eq_ok.1 composed
    cases composed
    rfl
  · cases composed

theorem ofAxisAngle_four {x y z angle : Float} {step : List Float}
    (turned : ofAxisAngle [.float x, .float y, .float z] (.float angle) = .ok step) :
    ∃ a b c d, step = [a, b, c, d] := by
  unfold ofAxisAngle at turned
  obtain ⟨axis, -, turned⟩ := bind_eq_ok.1 turned
  obtain ⟨degrees, -, turned⟩ := bind_eq_ok.1 turned
  obtain ⟨s, -, turned⟩ := bind_eq_ok.1 turned
  cases turned
  exact ⟨_, _, _, _, rfl⟩

/-- The rotation about an axis of three doubles fails only on an axis of length zero, or on an
angle whose half in radians is infinite. -/
theorem ofAxisAngle_fault {x y z angle : Float} {f : Fault}
    (failed : ofAxisAngle [.float x, .float y, .float z] (.float angle) = .error f) :
    f = .zeroAxis ∨ f = .mathDomain := by
  have read : unpack Number.toFloat 3 [.float x, .float y, .float z] = .ok [x, y, z] := rfl
  unfold ofAxisAngle normalizeAxis at failed
  rw [read, ok_bind] at failed
  dsimp only at failed
  split at failed
  · exact Or.inl (Except.error.inj failed).symm
  · rw [ok_bind] at failed
    change (sine _ >>= _) = _ at failed
    unfold sine at failed
    split at failed
    · exact Or.inr (Except.error.inj failed).symm
    · simp at failed

/-! ## What one statement needs -/

/-- The values a statement merges, given the transformations after it: those its entity has
reached in the channel it moves. -/
def Source.Statement.merged (m : String → Tracked) : Statement → List Float
  | .translate e _ _ => Baker.components (m e).translation
  | .scale e _ _ => Baker.components (m e).scale
  | .rotate e _ _ _ => Baker.quaternionValues (m e).rotation
  | _ => []

/-- Whether a statement is a rotation. -/
def Source.Statement.IsRotation (s : Statement) : Prop :=
  ∃ e axis angle d, s = .rotate e axis angle d

namespace Source.Statement

theorem track_rotations {s : Statement} {m m' : String → Tracked} (rotations : Rotations m)
    (tracked : s.track m = .ok m') : Rotations m' := by
  cases s with
  | rotate e axis angle d =>
    obtain ⟨step, turned, tracked⟩ := bind_eq_ok.1 tracked
    obtain ⟨q, composed, tracked⟩ := bind_eq_ok.1 tracked
    cases tracked
    obtain ⟨r, composed', quaternion⟩ := mul_quaternion (ofAxisAngle_four turned) (rotations e)
    rw [composed, Except.ok.injEq] at composed'
    apply rotations.update e
    rw [composed']
    exact quaternion
  | translate e c d | scale e c d =>
    cases tracked
    exact rotations.update e (rotations e)
  | spawn source kind e =>
    cases tracked
    exact rotations.update e (rotations_fresh e)
  | objectName | wait | item | block | text | teleport | placeBlock | raw =>
    cases tracked
    exact rotations

/-- Tracking fails only at a rotation, on its axis or its angle. -/
theorem track_fault {s : Statement} {m : String → Tracked} {f : Fault} (rotations : Rotations m)
    (failed : s.track m = .error f) : (f = .zeroAxis ∨ f = .mathDomain) ∧ s.IsRotation := by
  cases s with
  | rotate e axis angle d =>
    refine ⟨?_, e, axis, angle, d, rfl⟩
    dsimp only [track] at failed
    cases turned : ofAxisAngle ((Baker.components axis).map .float) (.float angle) with
    | error g =>
      rw [turned] at failed
      cases failed
      exact ofAxisAngle_fault turned
    | ok step =>
      rw [turned, ok_bind] at failed
      obtain ⟨r, composed, -⟩ := mul_quaternion (ofAxisAngle_four turned) (rotations e)
      rw [composed, ok_bind] at failed
      cases failed
  | translate | scale | spawn | objectName | wait | item | block | text | teleport | placeBlock
    | raw =>
    cases failed

end Source.Statement

namespace Baker

/-- A merge fails only as a bad input. -/
theorem merge_fault {b : Baker} {e : String} {channel : Channel} {values : List Float} {d : Nat}
    {f : Fault} (failed : b.merge e channel values d = .error f) : f.isBadInput = true := by
  unfold merge at failed
  split at failed
  · cases failed
  · cases failed
    rfl

/-- A merge succeeds exactly when its values round to finite singles and fill the channel. -/
theorem merge_ok_iff {b : Baker} {e : String} {channel : Channel} {values : List Float}
    {d : Nat} : (∃ b', b.merge e channel values d = .ok b') ↔
      (∀ v ∈ values, isSingleFinite v = true) ∧ values.length = channel.arity := by
  rw [← @merge?_ok_iff (b.tag e) channel values (.num d) (.num 0)]
  unfold merge
  constructor
  · rintro ⟨b', merged⟩
    split at merged
    · rename_i a made
      exact ⟨a, made⟩
    · cases merged
  · rintro ⟨a, made⟩
    rw [made]
    exact ⟨_, rfl⟩

/-- Baking a statement succeeds exactly when tracking it does and the values it merges round to
finite singles. -/
theorem bake_ok_iff (b : Baker) (s : Statement) :
    (∃ b', b.bake s = .ok b') ↔
      ∃ m, s.track b.tracked = .ok m ∧ ∀ v ∈ s.merged m, isSingleFinite v = true := by
  cases s with
  | translate e c d | scale e c d =>
    simp only [bake, merge_ok_iff, Statement.track, Except.ok.injEq, exists_eq_left',
      Statement.merged, Function.update_self]
    exact ⟨And.left, fun finite => ⟨finite, rfl⟩⟩
  | rotate e axis angle d =>
    simp only [bake, Statement.track]
    cases turned : ofAxisAngle ((components axis).map .float) (.float angle) with
    | error f => simp [error_bind]
    | ok step =>
      simp only [ok_bind]
      cases composed : mul (step.map .float) (b.tracked e).rotation with
      | error f => simp [error_bind]
      | ok q =>
        simp only [ok_bind, merge_ok_iff, pure, Except.pure, Except.ok.injEq,
          exists_eq_left', Statement.merged, Function.update_self]
        have four : (quaternionValues q).length = Channel.leftRotation.arity := by
          rw [quaternionValues, List.length_map, mul_length composed]
          rfl
        exact ⟨And.left, fun finite => ⟨finite, four⟩⟩
  | objectName | wait | spawn | item | block | text | teleport | placeBlock =>
    simp [bake, Statement.track, Statement.merged]
  | raw command delayed =>
    cases delayed <;> simp [bake, Statement.track, Statement.merged]

/-- Baking a statement fails as a bad input, or at a rotation, on its axis or its angle. -/
theorem bake_fault {b : Baker} {s : Statement} {f : Fault} (rotations : Rotations b.tracked)
    (failed : b.bake s = .error f) :
    f.isBadInput = true ∨ (f = .zeroAxis ∨ f = .mathDomain) ∧ s.IsRotation := by
  cases s with
  | translate e c d | scale e c d => exact Or.inl (merge_fault failed)
  | rotate e axis angle d =>
    simp only [bake] at failed
    cases turned : ofAxisAngle ((components axis).map .float) (.float angle) with
    | error g =>
      rw [turned, error_bind] at failed
      cases failed
      exact Or.inr ⟨ofAxisAngle_fault turned, e, axis, angle, d, rfl⟩
    | ok step =>
      -- a rotation composes onto a tracked one without failing, so only the merge can fail
      rw [turned, ok_bind] at failed
      obtain ⟨q, composed, -⟩ := mul_quaternion (ofAxisAngle_four turned) (rotations e)
      rw [composed, ok_bind] at failed
      exact Or.inl (merge_fault failed)
  | objectName | wait | spawn | item | block | text | teleport | placeBlock => cases failed
  | raw command delayed => cases delayed <;> cases failed

/-- Baking a run of statements succeeds exactly when tracking them does and the values every
statement merges round to finite singles. -/
theorem bakeAll_ok_iff : ∀ (b : Baker) (ss : List Statement),
    (∃ b', bakeAll b ss = .ok b') ↔ ∃ steps, trackSteps b.tracked ss = .ok steps ∧
      ∀ x ∈ steps, ∀ v ∈ x.1.merged x.2, isSingleFinite v = true
  | b, [] => iff_of_true ⟨b, rfl⟩ ⟨[], rfl, fun _ none => absurd none List.not_mem_nil⟩
  | b, s :: rest => by
    constructor
    · rintro ⟨b', baked⟩
      rw [bakeAll, bind_eq_ok] at baked
      obtain ⟨b₁, first, later⟩ := baked
      obtain ⟨m, tracked, merged⟩ := (bake_ok_iff b s).1 ⟨b₁, first⟩
      -- the transformations after the statement are those the baker reads afterwards
      rw [(bake_tracks first).1, Except.ok.injEq] at tracked
      subst tracked
      obtain ⟨steps, tracks, finite⟩ := (bakeAll_ok_iff b₁ rest).1 ⟨b', later⟩
      refine ⟨(s, b₁.tracked) :: steps, ?_, ?_⟩
      · rw [trackSteps, (bake_tracks first).1, ok_bind, tracks, ok_bind]
        rfl
      · intro x mem
        rcases List.mem_cons.1 mem with rfl | later
        · exact merged
        · exact finite x later
    · rintro ⟨steps, tracks, finite⟩
      rw [trackSteps, bind_eq_ok] at tracks
      obtain ⟨m, tracked, tracks⟩ := tracks
      obtain ⟨later, tracksRest, tracks⟩ := bind_eq_ok.1 tracks
      cases tracks
      obtain ⟨b₁, first⟩ := (bake_ok_iff b s).2 ⟨m, tracked, finite _ List.mem_cons_self⟩
      have reads : b₁.tracked = m := by
        rw [(bake_tracks first).1, Except.ok.injEq] at tracked
        exact tracked
      obtain ⟨b', baked⟩ := (bakeAll_ok_iff b₁ rest).2
        ⟨later, by rw [reads]; exact tracksRest, fun x mem => finite x (List.mem_cons_of_mem _ mem)⟩
      exact ⟨b', by rw [bakeAll, first, ok_bind]; exact baked⟩

end Baker

/-- Baking a run of statements fails as a bad input, or at one of its rotations. -/
theorem bakeAll_fault : ∀ {b : Baker} {ss : List Statement} {f : Fault}, Rotations b.tracked →
    bakeAll b ss = .error f →
      f.isBadInput = true ∨ (f = .zeroAxis ∨ f = .mathDomain) ∧ ∃ s ∈ ss, s.IsRotation
  | _, [], _, _, failed => by cases failed
  | b, s :: rest, f, rotations, failed => by
    rw [bakeAll] at failed
    cases baked : b.bake s with
    | error g =>
      rw [baked, error_bind] at failed
      cases failed
      rcases Baker.bake_fault rotations baked with bad | ⟨kind, rotation⟩
      · exact Or.inl bad
      · exact Or.inr ⟨kind, s, List.mem_cons_self, rotation⟩
    | ok b₁ =>
      rw [baked, ok_bind] at failed
      have rotations₁ := Statement.track_rotations rotations (Baker.bake_tracks baked).1
      rcases bakeAll_fault rotations₁ failed with bad | ⟨kind, s', mem, rotation⟩
      · exact Or.inl bad
      · exact Or.inr ⟨kind, s', List.mem_cons_of_mem _ mem, rotation⟩

/-! ## Names -/

theorem programNames_fault {p : Program} {f : Fault} (failed : programNames p = .error f) :
    f.isBadInput = true := by
  unfold programNames at failed
  split at failed
  · cases failed
  · dsimp only at failed
    split at failed
    · cases failed
    · cases failed
      rfl

/-- A program is named exactly when it has an object line or the stem of its file name is a
name. -/
theorem programNames_ok_iff (p : Program) :
    (∃ names, programNames p = .ok names) ↔
      (∃ o a, Statement.objectName o a ∈ p.statements) ∨
        isName (PurePath.ofString p.path).stem = true := by
  unfold programNames
  split
  · rename_i names found
    refine iff_of_true ⟨names, rfl⟩ (Or.inl ?_)
    obtain ⟨s, kept, object⟩ := List.exists_of_findSome?_eq_some found
    split at object
    · rename_i o a
      exact ⟨o, a, kept⟩
    · cases object
  · rename_i absent
    have noObject : ¬ ∃ o a, Statement.objectName o a ∈ p.statements := by
      rintro ⟨o, a, kept⟩
      cases List.findSome?_eq_none_iff.1 absent _ kept
    rw [or_iff_right noObject]
    dsimp only
    split
    · rename_i named
      exact iff_of_true ⟨_, rfl⟩ named
    · rename_i unnamed
      exact iff_of_false (fun ⟨_, failed⟩ => by cases failed) unnamed

/-! ## Compiling a program -/

/-- A program compiles exactly when it is named, by an object line or by the stem of its file
name, tracking its transformations succeeds, and every value a statement merges rounds to a
finite single. Compiling fails as a bad input, or at a rotation whose axis has length zero in
double precision or whose half angle in radians is infinite: an axis of tiny components passes
the reader and still has length zero, as its squares underflow. -/
theorem compileProgram_faults (P : Program) :
    ((∃ c, compileProgram P = .ok c) ↔
      ((∃ o a, Statement.objectName o a ∈ P.statements) ∨
          isName (PurePath.ofString P.path).stem = true) ∧
        ∃ steps, trackSteps (fun _ => {}) P.statements = .ok steps ∧
          ∀ x ∈ steps, ∀ v ∈ x.1.merged x.2, isSingleFinite v = true) ∧
    ∀ f, compileProgram P = .error f →
      f.isBadInput = true ∨ (f = .zeroAxis ∨ f = .mathDomain) ∧ ∃ s ∈ P.statements, s.IsRotation := by
  -- the baker starts with no entity, so it tracks every entity afresh
  have fresh (o : String) : Baker.tracked { objectName := o, path := P.path } = fun _ => {} := rfl
  refine ⟨⟨?_, ?_⟩, ?_⟩
  · rintro ⟨c, compiled⟩
    obtain ⟨⟨o, a⟩, named, baking⟩ := bind_eq_ok.1 compiled
    obtain ⟨b, baked, -⟩ := bind_eq_ok.1 baking
    refine ⟨(programNames_ok_iff P).1 ⟨_, named⟩, ?_⟩
    rw [← fresh o]
    exact (Baker.bakeAll_ok_iff _ _).1 ⟨b, baked⟩
  · rintro ⟨named, tracked⟩
    obtain ⟨⟨o, a⟩, named⟩ := (programNames_ok_iff P).2 named
    obtain ⟨b, baked⟩ := (Baker.bakeAll_ok_iff { objectName := o, path := P.path } P.statements).2
      (by rw [fresh o]; exact tracked)
    rw [compileProgram, named, ok_bind]
    dsimp only
    rw [baked, ok_bind]
    exact ⟨_, rfl⟩
  · intro f failed
    unfold compileProgram at failed
    cases named : programNames P with
    | error g =>
      rw [named, error_bind] at failed
      cases failed
      exact Or.inl (programNames_fault named)
    | ok names =>
      rw [named, ok_bind] at failed
      obtain ⟨o, a⟩ := names
      dsimp only at failed
      cases baked : bakeAll { objectName := o, path := P.path } P.statements with
      | error g =>
        rw [baked, error_bind] at failed
        cases failed
        exact bakeAll_fault (by rw [fresh o]; exact rotations_fresh) baked
      | ok b =>
        rw [baked, ok_bind] at failed
        cases failed

theorem Fault.eq_zeroAxis {f : Fault} (same : (f == .zeroAxis) = true) : f = .zeroAxis := by
  cases f <;> first | rfl | cases same

/-- A rotation about an axis whose first component passes the reader but whose length underflows
to zero in double precision: compiling fails on the axis, not as a bad input. -/
theorem compileProgram_tinyAxis :
    ∃ P, parseSource "rotate e [1e-200,0,0] 90 0" "a.dspa" = .ok P ∧
      compileProgram P = .error .zeroAxis := by
  refine ⟨_, eq_ok_of_toBool default (by decide +kernel), ?_⟩
  have failed : ((compileProgram ((parseSource "rotate e [1e-200,0,0] 90 0" "a.dspa").toOption.getD
      default)).map fun _ => ()).mapError (· == Fault.zeroAxis) = .error true := by
    decide +kernel
  revert failed
  cases compileProgram ((parseSource "rotate e [1e-200,0,0] 90 0" "a.dspa").toOption.getD default) with
  | ok c => exact fun failed => by cases failed
  | error f => exact fun failed => congrArg Except.error (Fault.eq_zeroAxis (Except.error.inj failed))

end Keyframes
