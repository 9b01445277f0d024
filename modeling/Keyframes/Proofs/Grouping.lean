import Keyframes.Proofs.Cycle

/-!
# Grouping rules by offset

A rule table keeps its actions grouped by offset, as a dictionary filled rule by rule: each rule
appends its action to the group of its offset, opening the group when the offset is new. What
every playback statement rests on is that this grouping is stable and complete:

* the actions at an offset are the actions of the rules at that offset, in registration order,
  and none for an offset no rule has, a negative one included (`actionsAt_eq_actionsOf`);
* the keys of the grouping are the offsets of the rules, each once (`byOffset_keys`), so the
  table's offsets, the keys sorted, increase strictly (`offsets_sorted`);
* the cycle ends at the greatest of zero, the rule offsets and the end offset
  (`maxOffset_isGreatest`): an end offset only ever raises the maximum.

Main statement: `groups_stably_by_offset`.
-/

namespace Keyframes.RuleTable

/-! ## The keys of a grouping -/

theorem keys_addToGroup (k : Nat) (a : Action) (groups : List (Nat × List Action)) :
    (addToGroup k a groups).map (·.1) =
      if k ∈ groups.map (·.1) then groups.map (·.1) else groups.map (·.1) ++ [k] := by
  induction groups with
  | nil => rfl
  | cons g rest ih =>
    obtain ⟨k', acts⟩ := g
    by_cases same : k' = k
    · simp [addToGroup, same]
    · by_cases listed : k ∈ rest.map (·.1) <;> simp [addToGroup, same, Ne.symm same, ih, listed]

/-- Grouping rules into groups with distinct keys keeps the keys distinct, and adds exactly the
offsets of the rules. -/
theorem keys_foldl_addToGroup (rules : List Rule) :
    ∀ groups : List (Nat × List Action), (groups.map (·.1)).Nodup →
      let keys := (rules.foldl (fun gs r => addToGroup r.offset r.action gs) groups).map (·.1)
      keys.Nodup ∧ ∀ n, n ∈ keys ↔ n ∈ groups.map (·.1) ∨ ∃ r ∈ rules, r.offset = n := by
  induction rules with
  | nil => intro groups distinct; simpa using distinct
  | cons r rest ih =>
    intro groups distinct
    -- one more rule adds its offset as a key when the offset is new
    have added : ((addToGroup r.offset r.action groups).map (·.1)).Nodup ∧
        ∀ n, n ∈ (addToGroup r.offset r.action groups).map (·.1) ↔
          n ∈ groups.map (·.1) ∨ n = r.offset := by
      rw [keys_addToGroup]
      split
      · rename_i listed
        exact ⟨distinct, fun n => ⟨Or.inl, fun h => h.elim id fun e => e ▸ listed⟩⟩
      · rename_i fresh
        refine ⟨List.nodup_append.2 ⟨distinct, List.nodup_singleton _, ?_⟩, fun n => by simp⟩
        intro x member y single
        rw [List.mem_singleton.1 single]
        exact fun e => fresh (e ▸ member)
    obtain ⟨nodup, keys⟩ := ih _ added.1
    refine ⟨nodup, fun n => ?_⟩
    rw [List.foldl_cons, keys, added.2]
    constructor
    · rintro ((listed | rfl) | ⟨r', member, rfl⟩)
      · exact .inl listed
      · exact .inr ⟨r, List.mem_cons_self, rfl⟩
      · exact .inr ⟨r', List.mem_cons_of_mem r member, rfl⟩
    · rintro (listed | ⟨r', member, rfl⟩)
      · exact .inl (.inl listed)
      · rcases List.mem_cons.1 member with rfl | later
        · exact .inl (.inr rfl)
        · exact .inr ⟨r', later, rfl⟩

theorem byOffset_keys (rules : List Rule) :
    ((byOffset rules).map (·.1)).Nodup ∧
      ∀ n, n ∈ (byOffset rules).map (·.1) ↔ ∃ r ∈ rules, r.offset = n := by
  obtain ⟨nodup, keys⟩ := keys_foldl_addToGroup rules [] List.nodup_nil
  exact ⟨nodup, fun n => (keys n).trans (by simp)⟩

/-! ## Offsets -/

theorem mem_offsets (t : RuleTable) (n : Nat) : n ∈ t.offsets ↔ ∃ r ∈ t.rules, r.offset = n := by
  rw [offsets, List.mem_mergeSort]
  exact (byOffset_keys t.rules).2 n

theorem offsets_sorted (t : RuleTable) : t.offsets.Pairwise (· < ·) := by
  have sorted : t.offsets.Pairwise fun a b => decide (a ≤ b) :=
    List.pairwise_mergeSort (fun a b c first second => by simp at *; omega)
      (fun a b => by simp; omega) _
  have distinct : t.offsets.Nodup :=
    (List.mergeSort_perm _ _).nodup_iff.2 (byOffset_keys t.rules).1
  exact (sorted.and distinct).imp fun both => by simp at both; omega

/-! ## The end of the cycle -/

/-- A running maximum ends at its start or at one of the offsets it took in. -/
theorem foldl_max_attained (rules : List Rule) : ∀ acc : Nat,
    rules.foldl (fun acc r => max acc r.offset) acc = acc ∨
      ∃ r ∈ rules, r.offset = rules.foldl (fun acc r => max acc r.offset) acc := by
  induction rules with
  | nil => intro acc; exact .inl rfl
  | cons r rest ih =>
    intro acc
    rw [List.foldl_cons]
    rcases ih (max acc r.offset) with same | ⟨r', member, attained⟩
    · rw [same]
      by_cases le : acc ≤ r.offset
      · exact .inr ⟨r, List.mem_cons_self, by omega⟩
      · exact .inl (by omega)
    · exact .inr ⟨r', List.mem_cons_of_mem r member, attained⟩

theorem maxOffset_toNat (t : RuleTable) :
    t.maxOffset.toNat = max t.rulesMax ((t.endOffset.map Ticks.toNat).getD 0) := by
  unfold maxOffset
  cases t.endOffset with
  | none => simp [Ticks.toNat]
  | some e =>
    show (if t.rulesMax < e.toNat then e else .num t.rulesMax).toNat = max t.rulesMax e.toNat
    by_cases beyond : t.rulesMax < e.toNat
    · rw [if_pos beyond]
      omega
    · rw [if_neg beyond]
      show t.rulesMax = max t.rulesMax e.toNat
      omega

/-- The cycle ends at the greatest of zero, the rule offsets and the end offset. -/
theorem maxOffset_isGreatest (t : RuleTable) :
    IsGreatest ({0} ∪ {n | ∃ r ∈ t.rules, r.offset = n} ∪ {n | ∃ e ∈ t.endOffset, e.toNat = n})
      t.maxOffset.toNat := by
  have bounds := le_foldl_max t.rules 0
  have attained := foldl_max_attained t.rules 0
  rw [maxOffset_toNat]
  unfold rulesMax
  constructor
  · -- the maximum is the rule maximum or the end offset, whichever is greater
    cases hend : t.endOffset with
    | none =>
      rcases attained with zero | ⟨r, member, at_r⟩
      · simp [zero]
      · exact .inl (.inr ⟨r, member, by simp [← at_r]⟩)
    | some e =>
      by_cases beyond : t.rules.foldl (fun acc r => max acc r.offset) 0 < e.toNat
      · exact .inr ⟨e, rfl, by simp; omega⟩
      · rcases attained with zero | ⟨r, member, at_r⟩
        · exact .inl (.inl (by simp; omega))
        · exact .inl (.inr ⟨r, member, by simp; omega⟩)
  · rintro n ((zero | ⟨r, member, rfl⟩) | ⟨e, hend, rfl⟩)
    · simp only [Set.mem_singleton_iff] at zero
      omega
    · exact Nat.le_trans (bounds.2 r member) (Nat.le_max_left _ _)
    · rw [Option.mem_def] at hend
      simp [hend]

/-! ## The table as a whole -/

/-- A rule table groups its rules stably by offset: the actions at every offset are those of the
rules at it, in order; the offsets are the distinct rule offsets, increasing; the table has one
entry per rule; and the cycle ends at the greatest of zero, the rule offsets and the end
offset. -/
theorem groups_stably_by_offset (t : RuleTable) :
    (∀ o : Int, t.actionsAt o = (t.rules.filter fun r => (r.offset : Int) = o).map (·.action)) ∧
      t.offsets.Pairwise (· < ·) ∧ (∀ n, n ∈ t.offsets ↔ ∃ r ∈ t.rules, r.offset = n) ∧
      t.size = t.rules.length ∧
      IsGreatest ({0} ∪ {n | ∃ r ∈ t.rules, r.offset = n} ∪ {n | ∃ e ∈ t.endOffset, e.toNat = n})
        t.maxOffset.toNat :=
  ⟨t.actionsAt_eq_actionsOf, t.offsets_sorted, t.mem_offsets, rfl, t.maxOffset_isGreatest⟩

example : (RuleTable.mk [⟨2, .raw "a"⟩, ⟨0, .raw "b"⟩, ⟨2, .raw "c"⟩] none).actionsAt 2 =
    [.raw "a", .raw "c"] := rfl

end Keyframes.RuleTable
