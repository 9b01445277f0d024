import Keyframes.Proofs.Margins
import Keyframes.Proofs.Framing

/-!
# Joining a split bracketed axis

Blanks split a bracketed axis such as `[0, 1, 1]` into several tokens, and a rotation joins them
back before it counts its arguments. Joining regroups the tokens of a line as `Rejoined` says: a
token that opens no run (one that does not start with `[`, or holds a `]`) stays as it is, and a
token that opens one takes in the tokens after it up to the first that holds a `]`, or up to the
end of the line, keeping its column. So joining loses no text and keeps the columns of the
tokens that start a group (`texts_joinBrackets`, `columns_joinBrackets_sublist`).

Blanks written into an axis after its `[` (`Spread`), as after `[`, around `,` and before `]`,
therefore come and go without trace: the pieces of a bracketed axis join back into the axis at
its own column (`joinFrom_spread`), a rotation reads only the texts of its joined arguments
(`Words.statement_rotate_texts`), and an axis that reads is bracketed or one character
(`axisArg_shape`), so a rotation line reads the same statement with its axis spread
(`checkText_spread`).

Main statement: `joinBrackets_regroups`.
-/

namespace Keyframes.Source
open Keyframes.Text

/-! ## Runs of tokens -/

/-- A token opens a bracketed run when it starts with `[` and holds no `]`. -/
def Token.Opens (t : Token) : Prop :=
  t.text.toList.head? = some '[' ∧ ']' ∉ t.text.toList

/-- A token closes a bracketed run when it holds a `]`. -/
def Token.Closes (t : Token) : Prop :=
  ']' ∈ t.text.toList

/-- The token a run joins into: the texts of its tokens one after another, at the column of the
first. -/
def Token.run (first : Token) (more : List Token) : Token :=
  ⟨first.text ++ String.join (more.map (·.text)), first.column⟩

/-- How joining regroups the tokens of a line. -/
inductive Rejoined : List Token → List Token → Prop
  | nil : Rejoined [] []
  /-- A token that opens no run stays as it is. -/
  | keep {t : Token} {ts out : List Token} : ¬ t.Opens → Rejoined ts out → Rejoined (t :: ts) (t :: out)
  /-- A run closes at the first token after its opening one that holds a `]`. -/
  | closed {o c : Token} {mids ts out : List Token} : o.Opens → (∀ m ∈ mids, ¬ m.Closes) →
      c.Closes → Rejoined ts out → Rejoined (o :: mids ++ c :: ts) (o.run (mids ++ [c]) :: out)
  /-- A run that no token closes takes in the rest of the line. -/
  | unclosed {o : Token} {mids : List Token} : o.Opens → (∀ m ∈ mids, ¬ m.Closes) →
      Rejoined (o :: mids) [o.run mids]

@[simp] theorem Token.run_column (t : Token) (more : List Token) : (t.run more).column = t.column :=
  rfl

theorem Token.run_nil (t : Token) : t.run [] = t := by
  simp [Token.run]

theorem Token.run_append (t : Token) (xs ys : List Token) :
    t.run (xs ++ ys) = ⟨(t.run xs).text ++ String.join (ys.map (·.text)), t.column⟩ := by
  simp [Token.run, String.append_assoc]

theorem contains_iff_mem (cs : List Char) (c : Char) : cs.contains c = true ↔ c ∈ cs := by
  simp

/-! ## One token at a time -/

theorem joinFrom_opens {t : Token} (opens : t.Opens) (ts : List Token) :
    joinFrom none (t :: ts) = joinFrom (some t) ts := by
  have open' : t.text.toList.head? = some '[' ∧ !t.text.toList.contains ']' :=
    ⟨opens.1, by simpa using opens.2⟩
  simp only [joinFrom, if_pos open']

theorem joinFrom_keeps {t : Token} (keeps : ¬ t.Opens) (ts : List Token) :
    joinFrom none (t :: ts) = t :: joinFrom none ts := by
  have keep' : ¬ (t.text.toList.head? = some '[' ∧ !t.text.toList.contains ']') := by
    simpa [Token.Opens, contains_iff_mem] using keeps
  simp only [joinFrom, if_neg keep']

theorem joinFrom_closes (p : Token) {t : Token} (closes : t.Closes) (ts : List Token) :
    joinFrom (some p) (t :: ts) = ⟨p.text ++ t.text, p.column⟩ :: joinFrom none ts := by
  have close' : t.text.toList.contains ']' = true := (contains_iff_mem _ _).2 closes
  simp only [joinFrom, close', if_true]

theorem joinFrom_carries (p : Token) {t : Token} (open' : ¬ t.Closes) (ts : List Token) :
    joinFrom (some p) (t :: ts) = joinFrom (some ⟨p.text ++ t.text, p.column⟩) ts := by
  have carry : ¬ t.text.toList.contains ']' = true := fun h => open' ((contains_iff_mem _ _).1 h)
  simp only [joinFrom, if_neg carry]

/-- A run carries on through tokens that do not close it. -/
theorem joinFrom_through (p : Token) {mids : List Token} (open' : ∀ m ∈ mids, ¬ m.Closes)
    (ts : List Token) : joinFrom (some p) (mids ++ ts) = joinFrom (some (p.run mids)) ts := by
  induction mids generalizing p with
  | nil => rw [List.nil_append, Token.run_nil]
  | cons m more ih =>
    rw [List.cons_append, joinFrom_carries p (open' m List.mem_cons_self),
      ih _ fun m' mem => open' m' (List.mem_cons_of_mem m mem)]
    simp [Token.run, String.append_assoc]

/-! ## Joining follows the regrouping -/

/-- Joining regroups as `Rejoined` says; the run being joined is generalised, as a run that has
taken in some tokens already. -/
theorem rejoined_joinFrom : ∀ ts : List Token,
    Rejoined ts (joinFrom none ts) ∧
      ∀ (o : Token) (mids : List Token), o.Opens → (∀ m ∈ mids, ¬ m.Closes) →
        Rejoined (o :: mids ++ ts) (joinFrom (some (o.run mids)) ts)
  | [] => ⟨.nil, fun o mids opens open' => by simpa [joinFrom] using Rejoined.unclosed opens open'⟩
  | t :: ts => by
    obtain ⟨rest, running⟩ := rejoined_joinFrom ts
    refine ⟨?_, fun o mids opens open' => ?_⟩
    · by_cases opens : t.Opens
      · rw [joinFrom_opens opens]
        simpa [Token.run_nil] using running t [] opens (fun _ mem => absurd mem List.not_mem_nil)
      · rw [joinFrom_keeps opens]
        exact .keep opens rest
    · by_cases closes : t.Closes
      · rw [joinFrom_closes _ closes]
        have joined : (⟨(o.run mids).text ++ t.text, (o.run mids).column⟩ : Token) =
            o.run (mids ++ [t]) := by
          simp [Token.run_append]
        rw [joined]
        exact .closed opens open' closes rest
      · rw [joinFrom_carries _ closes]
        have joined : (⟨(o.run mids).text ++ t.text, (o.run mids).column⟩ : Token) =
            o.run (mids ++ [t]) := by
          simp [Token.run_append]
        rw [joined]
        have carried := running o (mids ++ [t]) opens fun m mem => by
          rcases List.mem_append.1 mem with before | here
          · exact open' m before
          · rw [List.mem_singleton.1 here]
            exact closes
        simpa using carried

theorem rejoined_joinBrackets (ts : List Token) : Rejoined ts (joinBrackets ts) :=
  (rejoined_joinFrom ts).1

/-- The regrouping leaves nothing open: it is what joining gives. -/
theorem Rejoined.eq_joinBrackets {ts out : List Token} (regrouped : Rejoined ts out) :
    out = joinBrackets ts := by
  induction regrouped with
  | nil => rfl
  | keep keeps _ ih => rw [joinBrackets, joinFrom_keeps keeps, ← joinBrackets, ← ih]
  | @closed o c mids ts out opens open' closes _ ih =>
    rw [joinBrackets, List.cons_append, joinFrom_opens opens, joinFrom_through o open',
      joinFrom_closes _ closes, ← joinBrackets, ← ih]
    simp [Token.run_append]
  | @unclosed o mids opens open' =>
    rw [joinBrackets, joinFrom_opens opens, ← List.append_nil mids, joinFrom_through o open']
    simp [joinFrom]

theorem rejoined_iff (ts out : List Token) : Rejoined ts out ↔ out = joinBrackets ts :=
  ⟨Rejoined.eq_joinBrackets, fun joined => joined ▸ rejoined_joinBrackets ts⟩

/-! ## Tokens of a text -/

/-- The tokens of a text hold its characters that are not blank, in order. -/
theorem tokensFrom_chars : ∀ (col start : Nat) (current cs : List Char),
    (tokensFrom col current start cs).flatMap (·.text.toList) =
      current.reverse ++ cs.filter fun c => !isBlank c
  | col, start, current, [] => by
    unfold tokensFrom pendingToken
    split
    · rename_i empty
      simp [List.isEmpty_iff.1 empty]
    · simp
  | col, start, current, c :: rest => by
    unfold tokensFrom
    by_cases blank : isBlank c = true
    · rw [if_pos blank, List.flatMap_append, tokensFrom_chars]
      unfold pendingToken
      split
      · rename_i empty
        simp [List.isEmpty_iff.1 empty, blank]
      · simp [blank]
    · rw [if_neg blank]
      have solid : isBlank c = false := by simpa using blank
      split
      · rename_i empty
        rw [tokensFrom_chars]
        simp [List.isEmpty_iff.1 empty, solid]
      · rw [tokensFrom_chars]
        simp [solid]

/-- A blank cuts a text in two whose tokens are read apart. -/
theorem tokensFrom_append_blank {b : Char} (blank : isBlank b = true) (ys : List Char) :
    ∀ (col start : Nat) (current xs : List Char),
      tokensFrom col current start (xs ++ b :: ys) =
        tokensFrom col current start xs ++ tokensFrom (col + xs.length + 1) [] 0 ys
  | col, start, current, [] => by
    simp only [List.nil_append, List.length_nil, Nat.add_zero, tokensFrom.eq_2, tokensFrom.eq_1,
      if_pos blank]
  | col, start, current, x :: xs => by
    rw [List.cons_append]
    simp only [tokensFrom.eq_2]
    have shifted : col + (x :: xs).length + 1 = col + 1 + xs.length + 1 := by
      simp only [List.length_cons]
      omega
    rw [shifted]
    split
    · rw [tokensFrom_append_blank blank ys (col + 1) 0 [] xs, List.append_assoc]
    · split
      · exact tokensFrom_append_blank blank ys (col + 1) col [x] xs
      · exact tokensFrom_append_blank blank ys (col + 1) start (x :: current) xs

/-- Every token of a text holds a character. -/
theorem pendingToken_nonempty {current : List Char} {start : Nat} :
    ∀ t ∈ pendingToken current start, t.text.toList ≠ [] := by
  unfold pendingToken
  split
  · intro t mem
    cases mem
  · rename_i going
    intro t mem
    rw [List.mem_singleton.1 mem, String.toList_ofList]
    simpa using going

theorem tokensFrom_nonempty : ∀ (col : Nat) (current : List Char) (start : Nat) (cs : List Char),
    ∀ t ∈ tokensFrom col current start cs, t.text.toList ≠ []
  | col, current, start, [] => pendingToken_nonempty
  | col, current, start, c :: rest => by
    unfold tokensFrom
    split
    · intro t mem
      rcases List.mem_append.1 mem with pending | after
      · exact pendingToken_nonempty t pending
      · exact tokensFrom_nonempty _ [] 0 rest t after
    · split
      · exact tokensFrom_nonempty _ [c] col rest
      · exact tokensFrom_nonempty _ (c :: current) start rest

/-- Where a text starts changes the columns of its tokens, not their texts. -/
theorem texts_tokensFrom (col col' : Nat) (cs : List Char) :
    (tokensFrom col [] 0 cs).map (·.text) = (tokensFrom col' [] 0 cs).map (·.text) := by
  have fromZero : ∀ k, (tokensFrom k [] 0 cs).map (·.text) = (tokensFrom 0 [] 0 cs).map (·.text) :=
    fun k => by
      have moved := tokensFrom_shift k 0 0 [] cs
      simp only [Nat.zero_add] at moved
      rw [tokensFrom_nil_start _ k 0] at moved
      simp [moved]
  rw [fromZero col, fromZero col']

/-- A text without blanks is one token. -/
theorem tokensFrom_word (col : Nat) {c : Char} {cs : List Char}
    (solid : ∀ x ∈ c :: cs, isBlank x = false) :
    tokensFrom col [] 0 (c :: cs) = [⟨String.ofList (c :: cs), col⟩] := by
  rw [tokensFrom, if_neg (by simp [solid c List.mem_cons_self]), if_pos List.isEmpty_nil,
    tokensFrom_solid _ _ [c] cs (List.cons_ne_nil c []) fun x mem => solid x (List.mem_cons_of_mem c mem)]
  rfl

/-! ## Joining reads texts only -/

/-- Joining reads the texts of the tokens only: tokens with the same texts join into tokens with
the same texts. -/
theorem texts_joinFrom_congr : ∀ {pending pending' : Option Token} {ts ts' : List Token},
    pending.map (·.text) = pending'.map (·.text) → ts.map (·.text) = ts'.map (·.text) →
      (joinFrom pending ts).map (·.text) = (joinFrom pending' ts').map (·.text)
  | pending, pending', [], [], same, _ => by
    cases pending <;> cases pending' <;> simp_all [joinFrom]
  | _, _, [], _ :: _, _, texts => by simp at texts
  | _, _, _ :: _, [], _, texts => by simp at texts
  | pending, pending', t :: ts, t' :: ts', same, texts => by
    simp only [List.map_cons, List.cons.injEq] at texts
    obtain ⟨text, texts⟩ := texts
    cases pending with
    | none =>
      cases pending' with
      | none =>
        simp only [joinFrom, text]
        split
        · exact texts_joinFrom_congr (by simp [text]) texts
        · simp only [List.map_cons, text]
          rw [texts_joinFrom_congr rfl texts]
      | some _ => simp at same
    | some p =>
      cases pending' with
      | none => simp at same
      | some p' =>
        simp only [Option.map_some, Option.some.injEq] at same
        simp only [joinFrom, text]
        split
        · simp only [List.map_cons, same]
          rw [texts_joinFrom_congr rfl texts]
        · exact texts_joinFrom_congr (by simp [same]) texts

theorem texts_joinBrackets_congr {ts ts' : List Token} (texts : ts.map (·.text) = ts'.map (·.text)) :
    (joinBrackets ts).map (·.text) = (joinBrackets ts').map (·.text) :=
  texts_joinFrom_congr rfl texts

/-! ## Blanks in a token -/

/-- A text spreads a token's text when it starts with the same character and holds, blanks
apart, the same characters: blanks may stand anywhere after the first character, as after `[`,
around `,` and before `]` in an axis. -/
def Spread (a s : List Char) : Prop :=
  s.head? = a.head? ∧ s.filter (fun c => !isBlank c) = a

theorem Spread.solid {a s : List Char} (spread : Spread a s) : ∀ c ∈ a, isBlank c = false := by
  intro c mem
  rw [← spread.2] at mem
  simpa using (List.mem_filter.1 mem).2

/-- A token that starts with `[` and holds a `]` at most at its end. -/
def Token.Bracketed (a : Token) : Prop :=
  ∃ u, ']' ∉ u ∧ (a.text.toList = '[' :: u ∨ a.text.toList = '[' :: u ++ [']'])

theorem Token.ext_chars {t t' : Token} (chars : t.text.toList = t'.text.toList)
    (column : t.column = t'.column) : t = t' := by
  obtain ⟨text, col⟩ := t
  obtain ⟨text', col'⟩ := t'
  simp only at chars column
  rw [String.toList_inj.1 chars, column]

theorem Token.run_chars (p : Token) (ts : List Token) :
    (p.run ts).text.toList = p.text.toList ++ ts.flatMap (·.text.toList) := by
  simp [Token.run, List.flatMap_map]

/-- A run closes at the first token that holds a `]`. -/
theorem joinFrom_closes_after (p : Token) {mids : List Token} (open' : ∀ m ∈ mids, ¬ m.Closes)
    {c : Token} (closes : c.Closes) (ts : List Token) :
    joinFrom (some p) (mids ++ c :: ts) = p.run (mids ++ [c]) :: joinFrom none ts := by
  rw [joinFrom_through p open', joinFrom_closes _ closes, Token.run_append]
  simp

section Spread
variable {a : Token} {s : List Char} (spread : Spread a.text.toList s)
include spread

/-- The tokens of a spread text hold the characters of the token. -/
theorem spread_chars : (tokensFrom a.column [] 0 s).flatMap (·.text.toList) = a.text.toList := by
  rw [tokensFrom_chars, spread.2]
  rfl

/-- A spread text starts with a token where the token stood. -/
theorem spread_head (nonempty : a.text.toList ≠ []) :
    ∃ first more, tokensFrom a.column [] 0 s = first :: more ∧ first.column = a.column := by
  obtain ⟨c, cs, chars⟩ := List.exists_cons_of_ne_nil nonempty
  obtain ⟨s', rfl⟩ : ∃ s', s = c :: s' := by
    cases s with
    | nil => simp [Spread, chars] at spread
    | cons d s' => simp_all [Spread]
  have solid := spread.solid c (by simp [chars])
  have head := tokensFrom_head (a.column + 1) a.column [c] s' (List.cons_ne_nil c [])
  rw [tokensFrom, if_neg (by simp [solid]), if_pos List.isEmpty_nil]
  cases found : tokensFrom (a.column + 1) [c] a.column s' with
  | nil => rw [found] at head; cases head
  | cons first more =>
    rw [found] at head
    exact ⟨first, more, rfl, by simpa using head⟩

/-- A token of one character spreads into itself. -/
theorem spread_single (single : a.text.toList.length = 1) : tokensFrom a.column [] 0 s = [a] := by
  obtain ⟨first, more, found, column⟩ := spread_head spread (by
    intro empty
    rw [empty] at single
    cases single)
  have chars := spread_chars spread
  rw [found, List.flatMap_cons] at chars
  have filled := tokensFrom_nonempty _ _ _ _ first (found ▸ List.mem_cons_self)
  -- the first token takes the one character, so no other token is left
  have alone : more.flatMap (·.text.toList) = [] := by
    have := congrArg List.length chars
    rw [List.length_append, single] at this
    have : 0 < first.text.toList.length := List.length_pos_iff.2 filled
    exact List.eq_nil_of_length_eq_zero (by omega)
  have none : more = [] := by
    cases more with
    | nil => rfl
    | cons m rest =>
      have := tokensFrom_nonempty _ _ _ _ m (found ▸ List.mem_cons_of_mem _ List.mem_cons_self)
      simp_all
  rw [found, none, Token.ext_chars (by simpa [alone] using chars) column]

/-- Every piece of a spread token holds characters of the token. -/
theorem spread_inside : ∀ t ∈ tokensFrom a.column [] 0 s, t.text.toList ⊆ a.text.toList :=
  fun t mem _ held => spread_chars spread ▸ List.mem_flatMap.2 ⟨t, mem, held⟩

/-- The first piece of a spread token starts as the token does. -/
theorem spread_first_head {first : Token} {more : List Token}
    (found : tokensFrom a.column [] 0 s = first :: more) :
    first.text.toList.head? = a.text.toList.head? := by
  have head := congrArg List.head? (spread_chars spread)
  rw [found, List.flatMap_cons, List.head?_append_of_ne_nil _
    (tokensFrom_nonempty _ _ _ _ first (found ▸ List.mem_cons_self))] at head
  exact head

/-- A spread token whose `]` ends it falls into pieces of which only the last holds a `]`. -/
theorem spread_closing_pieces {u : List Char} (closing : a.text.toList = '[' :: u ++ [']'])
    (noClose : ']' ∉ u) : ∃ init last, tokensFrom a.column [] 0 s = init ++ [last] ∧
      last.Closes ∧ ∀ m ∈ init, ¬ m.Closes := by
  obtain ⟨first, more, found, -⟩ := spread_head spread (by simp [closing])
  obtain ⟨init, last, pieces⟩ : ∃ init last, tokensFrom a.column [] 0 s = init ++ [last] := by
    rcases List.eq_nil_or_concat (tokensFrom a.column [] 0 s) with empty | ⟨init, last, concat⟩
    · rw [found] at empty
      cases empty
    · exact ⟨init, last, by rw [concat, List.concat_eq_append]⟩
  have filled := tokensFrom_nonempty a.column [] 0 s last (by simp [pieces])
  have chars := spread_chars spread
  rw [pieces, List.flatMap_append, List.flatMap_singleton, closing] at chars
  refine ⟨init, last, pieces, ?_, fun m mem closes => ?_⟩
  · -- the last character of the token is the last of its last piece
    have ends := congrArg List.getLast? chars
    rw [List.getLast?_append_of_ne_nil _ filled, List.getLast?_concat] at ends
    exact List.mem_of_getLast? ends
  · -- the pieces before it hold the characters before the `]`
    have front := congrArg List.dropLast chars
    rw [List.dropLast_append_of_ne_nil filled, List.dropLast_concat] at front
    have held : ']' ∈ '[' :: u :=
      front ▸ List.mem_append_left _ (List.mem_flatMap.2 ⟨m, mem, closes⟩)
    simp only [List.mem_cons] at held
    exact held.elim (by decide) noClose

/-- A spread token that opens a run: its pieces carry the run on, and none closes it. -/
theorem joinFrom_spread_opening {u : List Char} (opening : a.text.toList = '[' :: u)
    (noClose : ']' ∉ u) (pending : Option Token) (rest : List Token) :
    joinFrom pending (tokensFrom a.column [] 0 s ++ rest) = joinFrom pending (a :: rest) := by
  have chars := spread_chars spread
  have noClose' : ']' ∉ a.text.toList := by
    rw [opening]
    simpa using noClose
  have open' : ∀ t ∈ tokensFrom a.column [] 0 s, ¬ t.Closes :=
    fun t mem closes => noClose' (spread_inside spread t mem closes)
  cases pending with
  | none =>
    obtain ⟨first, more, found, column⟩ := spread_head spread (by simp [opening])
    have firstOpens : first.Opens :=
      ⟨by rw [spread_first_head spread found, opening]; rfl, open' first (by simp [found])⟩
    rw [found] at chars open'
    rw [found, List.cons_append, joinFrom_opens firstOpens,
      joinFrom_through _ fun m mem => open' m (List.mem_cons_of_mem _ mem),
      joinFrom_opens ⟨by simp [opening], noClose'⟩]
    congr 2
    exact Token.ext_chars (by rw [Token.run_chars, ← chars, List.flatMap_cons]) column
  | some p =>
    rw [joinFrom_through p open', joinFrom_carries p (fun closes => noClose' closes)]
    congr 2
    exact Token.ext_chars (by rw [Token.run_chars, chars, String.toList_append]) rfl

/-- A spread token whose `]` ends it: its last piece closes the run, which its first piece opens
when no run is open. -/
theorem joinFrom_spread_closing {u : List Char} (closing : a.text.toList = '[' :: u ++ [']'])
    (noClose : ']' ∉ u) (pending : Option Token) (rest : List Token) :
    joinFrom pending (tokensFrom a.column [] 0 s ++ rest) = joinFrom pending (a :: rest) := by
  have closes : a.Closes := by
    show ']' ∈ a.text.toList
    rw [closing]
    simp
  obtain ⟨init, last, pieces, lastCloses, initOpen⟩ := spread_closing_pieces spread closing noClose
  have chars := spread_chars spread
  rw [pieces] at chars
  cases pending with
  | none =>
    obtain ⟨first, more, found, column⟩ := spread_head spread (by simp [closing])
    rw [joinFrom_keeps (fun opens => opens.2 closes)]
    cases init with
    | nil =>
      -- a single piece: the token itself
      rw [found, List.nil_append, List.cons.injEq] at pieces
      rw [found, pieces.2, Token.ext_chars (by simpa [pieces.1] using chars) column,
        List.singleton_append, joinFrom_keeps (fun opens => opens.2 closes)]
    | cons first' mids =>
      rw [found, List.cons_append, List.cons.injEq] at pieces
      obtain ⟨rfl, following⟩ := pieces
      have firstOpens : first.Opens :=
        ⟨by rw [spread_first_head spread found, closing]; rfl, initOpen first List.mem_cons_self⟩
      rw [found, following, List.cons_append, joinFrom_opens firstOpens, List.append_assoc,
        List.singleton_append,
        joinFrom_closes_after first (fun m mem => initOpen m (List.mem_cons_of_mem _ mem)) lastCloses]
      congr 1
      refine Token.ext_chars ?_ column
      rw [Token.run_chars, ← chars]
      simp
  | some p =>
    rw [pieces, List.append_assoc, List.singleton_append,
      joinFrom_closes_after p initOpen lastCloses, joinFrom_closes p closes]
    congr 1
    exact Token.ext_chars (by rw [String.toList_append, Token.run_chars, chars]) rfl

/-- Joining reads a bracketed token spread with blanks as the token: its pieces join, with
whatever follows them, as the token itself does. -/
theorem joinFrom_spread (bracketed : a.Bracketed) (pending : Option Token) (rest : List Token) :
    joinFrom pending (tokensFrom a.column [] 0 s ++ rest) = joinFrom pending (a :: rest) := by
  obtain ⟨u, noClose, opening | closing⟩ := bracketed
  · exact joinFrom_spread_opening spread opening noClose pending rest
  · exact joinFrom_spread_closing spread closing noClose pending rest

end Spread

/-! ## What a rotation reads -/

/-- A character that lowers to one below the lower-case letters, other than `k`, is that
character already. -/
theorem lowerForMatch_symbol {c d : Char} (lowered : lowerForMatch c = d) (below : d.toNat < 97)
    (notK : d ≠ 'k') : c = d := by
  unfold lowerForMatch at lowered
  split at lowered
  · exact absurd lowered.symm notK
  · unfold Char.toLower at lowered
    split at lowered
    · -- an upper-case letter lowers to a lower-case one
      rename_i upper
      subst lowered
      have shift : ('a'.val - 'A'.val).toNat = 32 := by decide
      have first : 'A'.val.toNat = 65 := by decide
      have last : 'Z'.val.toNat = 90 := by decide
      have letter := UInt32.le_iff_toNat_le.1 upper.1
      have letter' := UInt32.le_iff_toNat_le.1 upper.2
      simp only [Char.toNat, UInt32.toNat_add, shift] at below
      omega
    · exact lowered

theorem mem_digitRun (cs : List Char) : ∀ c ∈ cs, isDigit c = true ∨ c ∈ (digitRun cs).2.2 := by
  induction cs with
  | nil => intro c mem; cases mem
  | cons d rest ih =>
    intro c mem
    by_cases digit : isDigit d = true
    · rcases List.mem_cons.1 mem with rfl | later
      · exact .inl digit
      · rcases ih c later with h | h
        · exact .inl h
        · right; simpa [digitRun, List.takeWhile_cons_of_pos digit] using h
    · right; simpa [digitRun, List.takeWhile_cons_of_neg digit] using mem

theorem bracket_digitRun {cs : List Char} (mem : ']' ∈ cs) : ']' ∈ (digitRun cs).2.2 :=
  (mem_digitRun cs ']' mem).resolve_left (by decide)

theorem digitRun_done {cs : List Char} (done : (digitRun cs).2.2 = []) : ']' ∉ cs := fun mem => by
  have := bracket_digitRun mem
  rw [done] at this
  cases this

theorem number?_no_bracket {cs : List Char} {x : Float} (read : number? cs = some x) : ']' ∉ cs := by
  intro mem
  unfold number? at read
  split at read
  rename_i negative body signed
  have inBody : ']' ∈ body := by
    split at signed <;> cases signed
    · simpa using mem
    · simpa using mem
    · exact mem
  split at read
  rename_i w wn r1 run
  have inR1 : ']' ∈ r1 := by simpa [run] using bracket_digitRun inBody
  dsimp only at read
  split at read
  · cases read
  · rename_i m fn rest mantissa
    -- the mantissa leaves the bracket in what follows it
    have inRest : ']' ∈ rest := by
      split at mantissa
      · rename_i r2
        split at mantissa
        · cases mantissa
          exact bracket_digitRun (by simpa using inR1)
        · cases mantissa
      · split at mantissa
        · cases mantissa
          exact inR1
        · cases mantissa
    -- an exponent holds only a sign and digits
    obtain ⟨e, exponent, -⟩ := Option.map_eq_some_iff.1 read
    split at exponent
    · cases inRest
    · rename_i c r
      split at exponent
      · rename_i exponentMark
        have inR : ']' ∈ r := by
          rcases List.mem_cons.1 inRest with same | later
          · rcases exponentMark with rfl | rfl <;> cases same
          · exact later
        -- whatever the sign, digits run to the end
        split at exponent <;> split at exponent
        all_goals first
          | rename_i digits
            exact digitRun_done (List.isEmpty_iff.1 digits.2) (by simpa using inR)
          | cases exponent
      · cases exponent

theorem mem_piecesOf {sep c : Char} (other : c ≠ sep) :
    ∀ {cs : List Char}, c ∈ cs → ∃ p ∈ piecesOf sep cs, c ∈ p
  | d :: rest, mem => by
    unfold piecesOf
    split
    · rename_i none
      rcases List.mem_cons.1 mem with rfl | later
      · exact ⟨[c], List.mem_singleton_self _, List.mem_singleton_self _⟩
      · obtain ⟨p, member, -⟩ := mem_piecesOf other later
        rw [none] at member
        cases member
    · rename_i first more found
      split
      · rcases List.mem_cons.1 mem with rfl | later
        · contradiction
        · obtain ⟨p, member, inside⟩ := mem_piecesOf other later
          rw [found] at member
          exact ⟨p, List.mem_cons_of_mem _ member, inside⟩
      · rcases List.mem_cons.1 mem with rfl | later
        · exact ⟨c :: first, List.mem_cons_self, List.mem_cons_self⟩
        · obtain ⟨p, member, inside⟩ := mem_piecesOf other later
          rw [found] at member
          rcases List.mem_cons.1 member with rfl | member
          · exact ⟨d :: p, List.mem_cons_self, List.mem_cons_of_mem _ inside⟩
          · exact ⟨p, List.mem_cons_of_mem _ member, inside⟩

/-- An axis that reads is one character, or `[`, characters without `]`, and `]`: a `]` inside
lands in a component, and no number holds one. -/
theorem axisArg_shape {t : Token} {v : Geometry.Vec3} (read : axisArg t = .ok v) :
    t.text.toList.length = 1 ∨ ∃ u, ']' ∉ u ∧ t.text.toList = '[' :: u ++ [']'] := by
  have lowered : (lowerWord t.text).toList = t.text.toList.map lowerForMatch := by
    simp [lowerWord]
  by_cases letter : t.text.toList.length = 1
  · exact .inl letter
  right
  have notOne : ∀ l, t.text.toList.map lowerForMatch ≠ [l] := fun l one =>
    letter (by simpa using congrArg List.length one)
  unfold axisArg at read
  dsimp only at read
  rw [lowered, if_neg (notOne 'x'), if_neg (notOne 'y'), if_neg (notOne 'z')] at read
  split at read
  · cases read
  rename_i bracketed
  simp only [Bool.not_eq_true', decide_eq_false_iff_not, not_and, not_forall, not_not] at bracketed
  obtain ⟨head, last⟩ := bracketed
  obtain ⟨values, mapped, -⟩ := bind_eq_ok.1 read
  -- the text is `[`, a middle, and a last character, which lowers to `]`
  obtain ⟨c, m, chars⟩ : ∃ c m, t.text.toList = c :: m := by
    cases found : t.text.toList with
    | nil => rw [found] at head; cases head
    | cons c m => exact ⟨c, m, rfl⟩
  rw [chars] at head last mapped letter
  have opening : c = '[' := lowerForMatch_symbol (by simpa using head) (by decide) (by decide)
  obtain ⟨u, z, rfl⟩ : ∃ u z, m = u ++ [z] := by
    rcases List.eq_nil_or_concat m with empty | ⟨u, z, concat⟩
    · exact absurd (by rw [empty]; rfl) letter
    · exact ⟨u, z, by rw [concat, List.concat_eq_append]⟩
  simp only [List.map_cons, List.map_append, List.map_nil, ← List.cons_append,
    List.getLast?_concat, Option.some_inj] at last
  have closing : z = ']' := lowerForMatch_symbol last (by decide) (by decide)
  refine ⟨u, fun inside => ?_, by rw [chars, opening, closing]; rfl⟩
  -- a `]` inside lands in a piece, which no number holds
  have inner : ']' ∈ (u.map lowerForMatch).filter (· != ' ') :=
    List.mem_filter.2 ⟨List.mem_map.2 ⟨']', inside, by decide⟩, by decide⟩
  obtain ⟨p, piece, held⟩ := mem_piecesOf (show ']' ≠ ',' by decide) inner
  simp only [List.map_cons, List.map_append, List.map_nil, List.drop_one, List.tail_cons,
    List.dropLast_concat] at mapped
  obtain ⟨y, number⟩ := ok_of_mapM_eq_ok mapped p piece
  unfold numberIn at number
  split at number
  · cases number
  · rename_i x read
    exact number?_no_bracket read held

/-- A name does not start with `[`. -/
theorem isName_head {s : String} (named : isName s = true) : s.toList.head? ≠ some '[' := by
  intro opening
  obtain ⟨r, chars⟩ : ∃ r, s.toList = '[' :: r := by
    cases found : s.toList with
    | nil => rw [found] at opening; cases opening
    | cons c r => rw [found] at opening; cases opening; exact ⟨r, rfl⟩
  have notName : isNameChar '[' = false := by decide
  simp only [isName, chars] at named
  cases r with
  | nil => simp [notName] at named
  | cons x r' => split at named <;> simp [notName] at named

/-- A run starts its token with the text of the token that opened it. -/
theorem joinFrom_some_head (p : Token) : ∀ ts : List Token,
    ∃ h tl more, joinFrom (some p) ts = h :: tl ∧ h.text.toList = p.text.toList ++ more
  | [] => ⟨p, [], [], rfl, by simp⟩
  | t :: ts => by
    by_cases closes : t.Closes
    · exact ⟨_, _, t.text.toList, joinFrom_closes p closes ts, by simp⟩
    · obtain ⟨h, tl, more, found, chars⟩ := joinFrom_some_head ⟨p.text ++ t.text, p.column⟩ ts
      refine ⟨h, tl, t.text.toList ++ more, by rw [joinFrom_carries p closes, found], ?_⟩
      rw [chars]
      simp

/-- A check that reads a token's column only to report it gives the same result on tokens with
the same text, faults apart from their columns. -/
theorem mapError_snd_of_shift {α : Type} {check : Token → Checked α}
    (shifts : ∀ k t, check (t.shift k) = (check t).mapError (moveFault k)) {t t' : Token}
    (same : t'.text = t.text) : (check t').mapError Prod.snd = (check t).mapError Prod.snd := by
  have atZero : ∀ u : Token,
      (check u).mapError Prod.snd = (check ⟨u.text, 0⟩).mapError Prod.snd := by
    intro u
    have placed : u = (⟨u.text, 0⟩ : Token).shift u.column := by simp [Token.shift]
    conv_lhs => rw [placed, shifts]
    cases check ⟨u.text, 0⟩ <;> rfl
  rw [atZero t', atZero t, same]

/-- A rotation reads the texts of its keyword and of its joined arguments only: with the same
texts it reads the same statement, or fails the same way at another column. -/
theorem Words.statement_rotate_texts {w w' : Words}
    (rotate : Keyword.ofWord? (lowerWord w.keyword.text) = some .rotate)
    (keyword : w'.keyword.text = w.keyword.text)
    (texts : (joinBrackets w'.args).map (·.text) = (joinBrackets w.args).map (·.text)) :
    w'.statement.mapError Prod.snd = w.statement.mapError Prod.snd := by
  have getText : ∀ (l : List Token) (d : Token) (i : Nat),
      (l.getD i d).text = (l.map (·.text)).getD i d.text := by
    intro l d i
    rw [List.getD_eq_getElem?_getD, List.getD_eq_getElem?_getD, List.getElem?_map, Option.getD_map]
  have arg : ∀ i, (({ w' with args := joinBrackets w'.args } : Words).arg i).text =
      (({ w with args := joinBrackets w.args } : Words).arg i).text := by
    intro i
    simp only [Words.arg]
    rw [getText, getText (joinBrackets w.args), texts, keyword]
  have expect : (({ w' with args := joinBrackets w'.args } : Words).expect 4).mapError Prod.snd =
      (({ w with args := joinBrackets w.args } : Words).expect 4).mapError Prod.snd := by
    have length : (joinBrackets w'.args).length = (joinBrackets w.args).length := by
      simpa using congrArg List.length texts
    simp only [Words.expect, failAt, length, keyword]
    by_cases counted : (joinBrackets w.args).length = 4 <;> simp [counted, Except.mapError]
  unfold Words.statement
  rw [keyword, rotate]
  dsimp only
  simp only [mapError_bind, mapError_pure, expect,
    mapError_snd_of_shift (fun k t => nameArg_shift k t) (arg 0),
    mapError_snd_of_shift (fun k t => axisArg_shift k t) (arg 1),
    mapError_snd_of_shift (fun k t => numberArg_shift k t) (arg 2),
    mapError_snd_of_shift (fun k t => ticksArg_shift k t) (arg 3)]

/-- What a rotation that reads shows of its first two arguments as written: the name opens no
run, and the axis is bracketed or one character. -/
theorem Words.rotate_args {w : Words} {e a : Token} {rest : List Token} {st : Statement}
    (rotate : Keyword.ofWord? (lowerWord w.keyword.text) = some .rotate)
    (args : w.args = e :: a :: rest) (read : w.statement = .ok st) :
    ¬ e.Opens ∧ (a.Bracketed ∨ a.text.toList.length = 1) := by
  unfold Words.statement at read
  rw [rotate] at read
  dsimp only at read
  obtain ⟨-, -, read⟩ := bind_eq_ok.1 read
  obtain ⟨n, named, read⟩ := bind_eq_ok.1 read
  obtain ⟨v, axis, -⟩ := bind_eq_ok.1 read
  simp only [Words.arg, args] at named axis
  -- a name that opened a run would start its token with `[`
  have keeps : ¬ e.Opens := by
    intro opens
    rw [joinBrackets, joinFrom_opens opens] at named
    obtain ⟨h, tl, more, found, chars⟩ := joinFrom_some_head e (a :: rest)
    rw [found, List.getD_cons_zero] at named
    have isNamed : isName h.text = true := by
      unfold nameArg at named
      split at named
      · assumption
      · cases named
    apply isName_head isNamed
    rw [chars, List.head?_append, opens.1]
    rfl
  refine ⟨keeps, ?_⟩
  rw [joinBrackets, joinFrom_keeps keeps] at axis
  by_cases opens : a.Opens
  · -- an axis that opens a run is bracketed as written
    obtain ⟨u, chars⟩ : ∃ u, a.text.toList = '[' :: u := by
      cases found : a.text.toList with
      | nil => have := opens.1; rw [found] at this; cases this
      | cons c u => have := opens.1; rw [found] at this; cases this; exact ⟨u, rfl⟩
    have noClose := opens.2
    rw [chars] at noClose
    exact .inl ⟨u, fun inside => noClose (List.mem_cons_of_mem _ inside), .inl chars⟩
  · rw [joinFrom_keeps opens, List.getD_cons_succ, List.getD_cons_zero] at axis
    rcases axisArg_shape axis with single | ⟨u, noClose, closing⟩
    · exact .inr single
    · exact .inl ⟨u, noClose, .inr closing⟩

/-! ## Spreading the axis of a rotation -/

/-- A rotation reads the same statement when its axis, written as one token, is spread with
blanks; the arguments after it may move, keeping their texts. -/
theorem Words.statement_spread {w : Words} {e a : Token} {rest rest' : List Token}
    {s : List Char} {st : Statement}
    (rotate : Keyword.ofWord? (lowerWord w.keyword.text) = some .rotate)
    (args : w.args = e :: a :: rest) (spread : Spread a.text.toList s)
    (moved : rest'.map (·.text) = rest.map (·.text)) (read : w.statement = .ok st)
    (text : List Char) :
    (⟨text, w.keyword, e :: (tokensFrom a.column [] 0 s ++ rest')⟩ : Words).statement = .ok st := by
  obtain ⟨keeps, axis⟩ := Words.rotate_args rotate args read
  -- the spread axis joins back into the axis
  have joined : joinBrackets (e :: (tokensFrom a.column [] 0 s ++ rest')) =
      joinBrackets (e :: a :: rest') := by
    rw [joinBrackets, joinFrom_keeps keeps, joinBrackets, joinFrom_keeps keeps]
    rcases axis with bracketed | single
    · rw [joinFrom_spread spread bracketed]
    · rw [spread_single spread single]
      rfl
  have same : (⟨text, w.keyword, e :: (tokensFrom a.column [] 0 s ++ rest')⟩ : Words).statement.mapError
      Prod.snd = w.statement.mapError Prod.snd :=
    Words.statement_rotate_texts rotate rfl (by
      rw [joined, args]
      exact texts_joinBrackets_congr (by simp [moved]))
  rw [read, mapError_ok] at same
  exact mapError_eq_ok.1 same

/-- The tokens of a line cut at two blanks after its first two words. -/
theorem tokens_around {P Q : List Char} {b b' : Char} {k e : Token} (words : tokens P = [k, e])
    (blank : isBlank b = true) (blank' : isBlank b' = true) (X : List Char) :
    tokens (P ++ b :: X ++ b' :: Q) =
      k :: e :: (tokensFrom (P.length + 2) [] 0 X ++
        tokensFrom (P.length + 2 + X.length + 1) [] 0 Q) := by
  have column : 1 + P.length + 1 = P.length + 2 := by omega
  unfold tokens
  rw [List.append_assoc, List.cons_append, tokensFrom_append_blank blank,
    tokensFrom_append_blank blank', show tokensFrom 1 [] 0 P = [k, e] from words, column]
  rfl

/-- Blanks spread into the axis of a rotation line, written as one word after the keyword and
the name, leave the statement the line reads as it is. -/
theorem checkText_spread {P A S Q : List Char} {b b' : Char} {k e : Token} {r : Option Statement}
    (words : tokens P = [k, e]) (rotate : Keyword.ofWord? (lowerWord k.text) = some .rotate)
    (blank : isBlank b = true) (blank' : isBlank b' = true) (spread : Spread A S)
    (read : checkText (P ++ b :: A ++ b' :: Q) = .ok r) :
    checkText (P ++ b :: S ++ b' :: Q) = .ok r := by
  have cut := tokens_around (Q := Q) words blank blank'
  cases A with
  | nil =>
    -- no axis: nothing to spread
    rw [List.head?_eq_none_iff.1 spread.1]
    exact read
  | cons c A' =>
    obtain ⟨S', rfl⟩ := List.head?_eq_some_iff.1 spread.1
    let axis : Token := ⟨String.ofList (c :: A'), P.length + 2⟩
    unfold checkText at read ⊢
    rw [cut, tokensFrom_word _ spread.solid, List.singleton_append] at read
    rw [cut]
    dsimp only at read ⊢
    -- what the line without spaces reads
    cases found : Words.statement ⟨P ++ b :: c :: A' ++ b' :: Q, k,
        e :: axis :: tokensFrom (P.length + 2 + (c :: A').length + 1) [] 0 Q⟩ with
    | error f =>
      rw [found] at read
      cases read
    | ok st =>
      rw [found] at read
      cases read
      have spread' : Spread axis.text.toList (c :: S') := by
        rw [String.toList_ofList]
        exact spread
      have spaced := @Words.statement_spread ⟨P ++ b :: c :: A' ++ b' :: Q, k,
        e :: axis :: tokensFrom (P.length + 2 + (c :: A').length + 1) [] 0 Q⟩ e axis
        (tokensFrom (P.length + 2 + (c :: A').length + 1) [] 0 Q)
        (tokensFrom (P.length + 2 + (c :: S').length + 1) [] 0 Q) (c :: S') st rotate rfl spread'
        (texts_tokensFrom _ _ Q) found (P ++ b :: c :: S' ++ b' :: Q)
      rw [spaced]
      rfl

/-! ## The regrouping as a whole -/

/-- Joining regroups the tokens of a line without loss: the texts run on as before, the columns
are some of the columns before, the regrouping is the one `Rejoined` gives (each token kept, or a
run from a token that opens one to the first that closes it, or to the end, at the column of its
first token), and spreading the axis of a rotation with blanks changes nothing the line reads. -/
theorem joinBrackets_regroups :
    (∀ ts : List Token,
      String.join ((joinBrackets ts).map (·.text)) = String.join (ts.map (·.text))) ∧
    (∀ ts : List Token, ((joinBrackets ts).map (·.column)).Sublist (ts.map (·.column))) ∧
    (∀ ts out : List Token, Rejoined ts out ↔ out = joinBrackets ts) ∧
    ∀ (P A S Q : List Char) (b b' : Char) (k e : Token) (r : Option Statement),
      tokens P = [k, e] → Keyword.ofWord? (lowerWord k.text) = some .rotate →
        isBlank b = true → isBlank b' = true → Spread A S →
          checkText (P ++ b :: A ++ b' :: Q) = .ok r → checkText (P ++ b :: S ++ b' :: Q) = .ok r :=
  ⟨texts_joinBrackets, columns_joinBrackets_sublist, rejoined_iff,
    fun _ _ _ _ _ _ _ _ _ words rotate blank blank' spread read =>
      checkText_spread words rotate blank blank' spread read⟩

/-- The axis of `rotate a [0,1,1] 30 2` written `[0, 1, 1]`: the line reads as before. -/
theorem joinBrackets_regroups_spaced_axis :
    (checkText ("rotate a".toList ++ ' ' :: "[0,1,1]".toList ++ ' ' :: "30 2".toList)).toBool =
        true ∧
      checkText ("rotate a".toList ++ ' ' :: "[0, 1, 1]".toList ++ ' ' :: "30 2".toList) =
        checkText ("rotate a".toList ++ ' ' :: "[0,1,1]".toList ++ ' ' :: "30 2".toList) := by
  have parsed : (checkText ("rotate a".toList ++ ' ' :: "[0,1,1]".toList ++ ' ' ::
      "30 2".toList)).toBool = true := by decide +kernel
  have read := eq_ok_of_toBool none parsed
  refine ⟨parsed, ?_⟩
  rw [read]
  exact joinBrackets_regroups.2.2.2 _ _ _ _ ' ' ' ' ⟨"rotate", 1⟩ ⟨"a", 8⟩ _ (by decide +kernel)
    (by decide +kernel) (by decide) (by decide) ⟨by decide, by decide⟩ read

end Keyframes.Source
