import Keyframes.Source.Program
import Keyframes.Proofs.Except

/-!
# What reading a source guarantees

A text is `Filled` when trimming leaves something of it. Every token of a line is filled, and so
is a raw command, which is trimmed and refused when nothing is left. `Statement.Sound` is what
a statement keeps of the checks that read it; every statement of a source that reads is sound
(`parseSource_sound`), as each line's statement is (`checkLine_sound`) and reading the lines in
turn only adds statements read from them (`readLines_preserves`).
-/

namespace Keyframes.Text

/-- A text is filled when it has a character that is not blank: what the readers of names and
commands ask of them. -/
def Filled (s : String) : Prop := (trimString s).isEmpty = false

theorem trim_eq_nil_iff (cs : List Char) : trim cs = [] ↔ ∀ c ∈ cs, isBlank c = true := by
  unfold trim dropBlanks
  rw [List.reverse_eq_nil_iff, List.dropWhile_eq_nil_iff]
  simp only [List.mem_reverse]
  constructor
  · intro blank
    -- what the blanks in front leave has a first character that is not blank, unless it is empty
    cases kept : cs.dropWhile isBlank with
    | nil => exact List.dropWhile_eq_nil_iff.1 kept
    | cons c rest =>
      have first := List.head_dropWhile_not isBlank (l := cs) (by rw [kept]; exact List.cons_ne_nil _ _)
      simp only [kept, List.head_cons] at first
      rw [blank c (by rw [kept]; exact List.mem_cons_self)] at first
      cases first
  · intro blank c kept
    exact blank c ((List.dropWhile_sublist isBlank).subset kept)

theorem filled_iff (s : String) : Filled s ↔ ∃ c ∈ s.toList, isBlank c = false := by
  unfold Filled trimString
  rw [String.isEmpty_eq_false_iff, ne_eq, String.ofList_eq_empty_iff, trim_eq_nil_iff]
  simp only [not_forall, Bool.not_eq_true, exists_prop]

theorem filled_of_mem {s : String} {c : Char} (mem : c ∈ s.toList) (solid : isBlank c = false) :
    Filled s :=
  (filled_iff s).2 ⟨c, mem, solid⟩

theorem filled_ofList_trim {cs : List Char} (kept : trim cs ≠ []) :
    Filled (String.ofList (trim cs)) := by
  unfold trim dropBlanks at kept ⊢
  have nonempty : List.dropWhile isBlank (List.dropWhile isBlank cs).reverse ≠ [] := by
    intro empty
    rw [empty] at kept
    exact kept rfl
  refine filled_of_mem (c := (List.dropWhile isBlank (List.dropWhile isBlank cs).reverse).head nonempty)
    ?_ (List.head_dropWhile_not isBlank nonempty)
  rw [String.toList_ofList, List.mem_reverse]
  exact List.head_mem nonempty

theorem filled_dash (a b : String) : Filled (a ++ "-" ++ b) :=
  filled_of_mem (c := '-') (by simp) (by decide)

theorem Filled.ne_empty {s : String} (filled : Filled s) : s ≠ "" := by
  rintro rfl
  cases filled

end Keyframes.Text

namespace Keyframes.Source
open Keyframes.Text

theorem filled_pendingToken {current : List Char} {start : Nat}
    (solid : ∀ c ∈ current, isBlank c = false) :
    ∀ t ∈ pendingToken current start, Filled t.text := by
  unfold pendingToken
  split
  · intro t mem
    cases mem
  · rename_i nonempty
    intro t mem
    rw [List.mem_singleton] at mem
    subst mem
    obtain ⟨c, rest, rfl⟩ := List.exists_cons_of_ne_nil (List.isEmpty_eq_false_iff.1 (Bool.eq_false_iff.2 nonempty))
    exact filled_of_mem (c := c) (by simp) (solid c List.mem_cons_self)

theorem filled_tokensFrom :
    ∀ (col : Nat) (current : List Char) (start : Nat) (cs : List Char),
      (∀ c ∈ current, isBlank c = false) → ∀ t ∈ tokensFrom col current start cs, Filled t.text
  | col, current, start, [], solid => filled_pendingToken solid
  | col, current, start, c :: rest, solid => by
    unfold tokensFrom
    split
    · intro t mem
      rcases List.mem_append.1 mem with pending | later
      · exact filled_pendingToken solid t pending
      · exact filled_tokensFrom _ [] 0 rest nofun t later
    · rename_i notBlank
      have solidHere : isBlank c = false := Bool.eq_false_iff.2 notBlank
      split
      · exact filled_tokensFrom _ [c] col rest fun d mem => by
          rw [List.mem_singleton] at mem
          rw [mem]
          exact solidHere
      · exact filled_tokensFrom _ (c :: current) start rest fun d mem => by
          rcases List.mem_cons.1 mem with rfl | mem
          · exact solidHere
          · exact solid d mem

theorem filled_tokens (cs : List Char) : ∀ t ∈ tokens cs, Filled t.text :=
  filled_tokensFrom 1 [] 0 cs nofun

theorem isName_ne_empty {s : String} (named : isName s = true) : s ≠ "" := by
  rintro rfl
  cases named

/-- What reading a line keeps of its checks in the statement: an object line names its object
with a name, and a block placement and a raw command are filled. -/
def Statement.Sound : Statement → Prop
  | .objectName o _ => isName o = true
  | .placeBlock _ _ _ blockId => Filled blockId
  | .raw command _ => Filled command
  | _ => True

theorem Words.expect_ok {w : Words} {count : Nat} {u : Unit} (expected : w.expect count = .ok u) :
    w.args.length = count := by
  unfold Words.expect at expected
  simp only [Bool.false_eq_true, if_false] at expected
  split at expected
  · cases expected
  · rename_i counted
    exact Decidable.of_not_not counted

theorem Words.statement_sound {w : Words} {s : Statement} (filled : ∀ t ∈ w.args, Filled t.text)
    (read : w.statement = .ok s) : s.Sound := by
  unfold Words.statement at read
  split at read
  · cases read
  · rw [bind_eq_ok] at read
    obtain ⟨_, _, read⟩ := read
    dsimp only at read
    split at read
    · cases read
    · split at read
      · cases read
      · rename_i named
        split at read
        · cases read
        · cases read
          show isName _ = true
          simpa using named
  -- the other keywords but `setblock` build statements that soundness leaves free: peeling the
  -- checks reaches the constructor
  · obtain ⟨_, -, read⟩ := bind_eq_ok.1 read
    obtain ⟨_, -, read⟩ := bind_eq_ok.1 read
    cases read
    trivial
  · obtain ⟨_, -, read⟩ := bind_eq_ok.1 read
    obtain ⟨_, -, read⟩ := bind_eq_ok.1 read
    obtain ⟨_, -, read⟩ := bind_eq_ok.1 read
    obtain ⟨_, -, read⟩ := bind_eq_ok.1 read
    obtain ⟨_, -, read⟩ := bind_eq_ok.1 read
    obtain ⟨_, -, read⟩ := bind_eq_ok.1 read
    cases read
    trivial
  · obtain ⟨_, -, read⟩ := bind_eq_ok.1 read
    obtain ⟨_, -, read⟩ := bind_eq_ok.1 read
    obtain ⟨_, -, read⟩ := bind_eq_ok.1 read
    obtain ⟨_, -, read⟩ := bind_eq_ok.1 read
    obtain ⟨_, -, read⟩ := bind_eq_ok.1 read
    obtain ⟨_, -, read⟩ := bind_eq_ok.1 read
    cases read
    trivial
  · dsimp only at read
    obtain ⟨_, -, read⟩ := bind_eq_ok.1 read
    obtain ⟨_, -, read⟩ := bind_eq_ok.1 read
    obtain ⟨_, -, read⟩ := bind_eq_ok.1 read
    obtain ⟨_, -, read⟩ := bind_eq_ok.1 read
    obtain ⟨_, -, read⟩ := bind_eq_ok.1 read
    cases read
    trivial
  · obtain ⟨_, -, read⟩ := bind_eq_ok.1 read
    dsimp only at read
    split at read
    · cases read
    · obtain ⟨_, -, read⟩ := bind_eq_ok.1 read
      obtain ⟨_, -, read⟩ := bind_eq_ok.1 read
      cases read
      trivial
  · obtain ⟨_, -, read⟩ := bind_eq_ok.1 read
    obtain ⟨_, -, read⟩ := bind_eq_ok.1 read
    cases read
    trivial
  · obtain ⟨_, -, read⟩ := bind_eq_ok.1 read
    obtain ⟨_, -, read⟩ := bind_eq_ok.1 read
    cases read
    trivial
  · obtain ⟨_, -, read⟩ := bind_eq_ok.1 read
    obtain ⟨_, -, read⟩ := bind_eq_ok.1 read
    dsimp only at read
    split at read
    · cases read
      trivial
    · split at read
      · cases read
      · obtain ⟨_, -, read⟩ := bind_eq_ok.1 read
        cases read
        trivial
  · obtain ⟨_, -, read⟩ := bind_eq_ok.1 read
    obtain ⟨_, -, read⟩ := bind_eq_ok.1 read
    obtain ⟨_, -, read⟩ := bind_eq_ok.1 read
    obtain ⟨_, -, read⟩ := bind_eq_ok.1 read
    obtain ⟨_, -, read⟩ := bind_eq_ok.1 read
    cases read
    trivial
  · obtain ⟨_, expected, read⟩ := bind_eq_ok.1 read
    obtain ⟨_, -, read⟩ := bind_eq_ok.1 read
    obtain ⟨_, -, read⟩ := bind_eq_ok.1 read
    obtain ⟨_, -, read⟩ := bind_eq_ok.1 read
    cases read
    have four := Words.expect_ok expected
    have kept : w.arg 3 ∈ w.args := by
      unfold Words.arg
      rw [List.getD_eq_getElem?_getD, List.getElem?_eq_getElem (by omega), Option.getD_some]
      exact List.getElem_mem _
    exact filled _ kept

theorem checkLine_sound {line : String} {s : Statement} (read : checkLine line = .ok (some s)) :
    s.Sound := by
  unfold checkLine at read
  dsimp only at read
  split at read
  · split at read
    · cases read
    · rename_i kept
      cases read
      exact filled_ofList_trim (by simpa using kept)
  · split at read
    · cases read
    · rename_i keyword args found
      have filled : ∀ t ∈ args, Filled t.text := fun t mem =>
        filled_tokens _ t (by rw [found]; exact List.mem_cons_of_mem keyword mem)
      cases stated : Words.statement ⟨stripComment line.toList, keyword, args⟩ with
      | error e =>
        rw [stated] at read
        cases read
      | ok s' =>
        rw [stated] at read
        cases read
        exact Words.statement_sound filled stated

theorem readLine_sound {path : String} {number : Int} {line : String} {s : Statement}
    (read : readLine path number line = .ok (some s)) : s.Sound :=
  checkLine_sound (mapError_eq_ok.1 read)

theorem take_preserves {P : Statement → Prop} {path : String} {r r' : Reading} {number : Nat}
    {line : List Char} {outcome : Except Fault (Option Statement)}
    (kept : ∀ s ∈ r.statements, P s) (fresh : ∀ s, outcome = .ok (some s) → P s)
    (taken : r.take path number line outcome = .ok r') : ∀ s ∈ r'.statements, P s := by
  unfold Reading.take at taken
  split at taken
  · cases taken
    exact kept
  · cases taken
  · cases taken
    exact kept
  · split at taken
    · cases taken
      exact kept
    · cases taken
      intro s mem
      rcases List.mem_cons.1 mem with rfl | mem
      · exact fresh _ rfl
      · exact kept s mem
  · cases taken
    intro s mem
    rcases List.mem_cons.1 mem with rfl | mem
    · exact fresh _ rfl
    · exact kept s mem

/-- Every statement of a reading holds `P` when every statement read from one of its lines
does. -/
theorem readLines_preserves {P : Statement → Prop} {path : String} {lines : List (List Char)}
    {r : Reading}
    (each : ∀ line ∈ lines, ∀ (number : Int) s,
      readLine path number (String.ofList line) = .ok (some s) → P s)
    (read : readLines path lines = .ok r) : ∀ s ∈ r.statements, P s := by
  unfold readLines at read
  -- the statements gathered so far hold `P` as each line is taken in
  suffices kept : ∀ (entries : List (Nat × List Char)) (r₀ r : Reading),
      (∀ e ∈ entries, e.2 ∈ lines) → (∀ s ∈ r₀.statements, P s) →
      entries.foldlM (fun r e =>
        r.take path (e.1 + 1) e.2 (readLine path (e.1 + 1) (String.ofList e.2))) r₀ = .ok r →
      ∀ s ∈ r.statements, P s from
    kept _ {} r (fun e mem => (List.of_mem_zip mem).2)
      (fun _ absent => absurd absent List.not_mem_nil) read
  intro entries
  induction entries with
  | nil =>
    intro r₀ r _ kept done
    cases done
    exact kept
  | cons e rest ih =>
    intro r₀ r within kept done
    rw [List.foldlM_cons, bind_eq_ok] at done
    obtain ⟨r₁, taken, done⟩ := done
    have line := within e List.mem_cons_self
    exact ih r₁ r (fun e' mem => within e' (List.mem_cons_of_mem e mem))
      (take_preserves kept (fun s found => each _ line _ s found) taken) done

theorem parseSource_preserves {P : Statement → Prop} {source path : String} {p : Program}
    (each : ∀ line ∈ lines source.toList, ∀ (number : Int) s,
      readLine path number (String.ofList line) = .ok (some s) → P s)
    (parsed : parseSource source path = .ok p) : ∀ s ∈ p.statements, P s := by
  unfold parseSource at parsed
  obtain ⟨r, read, parsed⟩ := bind_eq_ok.1 parsed
  split at parsed
  · cases parsed
    intro s mem
    exact readLines_preserves each read s (List.mem_reverse.1 mem)
  · cases parsed

theorem parseSource_sound {source path : String} {P : Program} (parsed : parseSource source path = .ok P) :
    ∀ s ∈ P.statements, s.Sound :=
  parseSource_preserves (fun _ _ _ _ read => readLine_sound read) parsed

end Keyframes.Source
