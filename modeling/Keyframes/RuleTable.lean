import Keyframes.Action

/-!
# Rule tables

A rule table is the static program of one timeline: rules, each an action at a tick offset, in
the order they were registered, and an optional end offset that stretches the cycle past the
last rule (a trailing wait). The table groups the actions by offset as a dictionary does
(`byOffset`): each rule appends its action to the group of its offset, and an offset seen for
the first time opens a group after the others. The actions at an offset are its group, the
offsets are the keys in increasing order. The cycle ends at `maxOffset`: the greatest rule
offset (zero without rules) or the end offset when that is greater.

Main statements: `actionsAt_eq_actionsOf` (the group of an offset holds the actions of the rules
at that offset, in registration order), `actionsAt_append` and `rulesMax_le_maxOffset`.
-/

namespace Keyframes

/-- An action at a tick offset. -/
structure Rule where
  offset : Nat
  action : Action
deriving Repr, Inhabited

/-- The rules of a timeline and its end offset. -/
structure RuleTable where
  rules : List Rule
  endOffset : Option Ticks := none
deriving Repr, Inhabited

namespace RuleTable

/-- The actions of the rules at offset `o`, in registration order. -/
def actionsOf (rules : List Rule) (o : Int) : List Action :=
  (rules.filter fun r => (r.offset : Int) = o).map (·.action)

/-- Appends an action to the group of offset `o`, opening a group for `o` after the others when
it has none. -/
def addToGroup (o : Nat) (a : Action) : List (Nat × List Action) → List (Nat × List Action)
  | [] => [(o, [a])]
  | (k, acts) :: rest => if k = o then (k, acts ++ [a]) :: rest else (k, acts) :: addToGroup o a rest

/-- The actions of the rules grouped by offset, the groups in order of their offset's first
rule. -/
def byOffset (rules : List Rule) : List (Nat × List Action) :=
  rules.foldl (fun groups r => addToGroup r.offset r.action groups) []

/-- The group of offset `o`; none for an offset without one. -/
def groupAt (groups : List (Nat × List Action)) (o : Int) : List Action :=
  ((groups.find? fun g => (g.1 : Int) = o).map (·.2)).getD []

/-- The actions at offset `o`, in registration order. -/
def actionsAt (t : RuleTable) (o : Int) : List Action :=
  groupAt (byOffset t.rules) o

theorem actionsAt_append (a b : List Rule) (o : Int) :
    actionsOf (a ++ b) o = actionsOf a o ++ actionsOf b o := by
  simp [actionsOf, List.filter_append]

theorem groupAt_addToGroup (k : Nat) (a : Action) (groups : List (Nat × List Action)) (o : Int) :
    groupAt (addToGroup k a groups) o = groupAt groups o ++ if (k : Int) = o then [a] else [] := by
  induction groups with
  | nil => by_cases at_o : (k : Int) = o <;> simp [addToGroup, groupAt, at_o]
  | cons g rest ih =>
    obtain ⟨k', acts⟩ := g
    by_cases same : k' = k
    · subst same
      by_cases at_o : (k' : Int) = o <;> simp [addToGroup, groupAt, at_o]
    · by_cases at_o : (k' : Int) = o
      · have other : (k : Int) ≠ o := fun e => same (by omega)
        simp [addToGroup, groupAt, same, at_o, other]
      · simpa [addToGroup, groupAt, same, at_o] using ih

theorem groupAt_foldl (rules : List Rule) :
    ∀ (groups : List (Nat × List Action)) (o : Int),
      groupAt (rules.foldl (fun groups r => addToGroup r.offset r.action groups) groups) o =
        groupAt groups o ++ actionsOf rules o := by
  induction rules with
  | nil => intro groups o; simp [actionsOf]
  | cons r rest ih =>
    intro groups o
    rw [List.foldl_cons, ih, groupAt_addToGroup, List.append_assoc]
    by_cases at_o : (r.offset : Int) = o <;> simp [actionsOf, at_o]

/-- Grouping is stable: the group of an offset holds the actions of the rules at that offset,
in registration order. -/
theorem actionsAt_eq_actionsOf (t : RuleTable) (o : Int) : t.actionsAt o = actionsOf t.rules o := by
  rw [actionsAt, byOffset, groupAt_foldl]
  rfl

/-- The distinct offsets of the rules, in increasing order: the keys of the grouping, sorted. -/
def offsets (t : RuleTable) : List Nat :=
  ((byOffset t.rules).map (·.1)).mergeSort

/-- The greatest rule offset, zero without rules. -/
def rulesMax (t : RuleTable) : Nat :=
  t.rules.foldl (fun acc r => max acc r.offset) 0

/-- The last offset of the cycle: the greatest rule offset, or the end offset when that is
greater (a tie keeps the rule offset). -/
def maxOffset (t : RuleTable) : Ticks :=
  match t.endOffset with
  | some e => if t.rulesMax < e.toNat then e else .num t.rulesMax
  | none => .num t.rulesMax

/-- The number of rules. -/
def size (t : RuleTable) : Nat :=
  t.rules.length

theorem rulesMax_le_maxOffset (t : RuleTable) : t.rulesMax ≤ t.maxOffset.toNat := by
  unfold maxOffset
  split
  · split
    · omega
    · simp [Ticks.toNat]
  · simp [Ticks.toNat]

end RuleTable

end Keyframes
