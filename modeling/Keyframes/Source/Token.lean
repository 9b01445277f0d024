import Keyframes.Text.Blank

/-!
# Tokens of a line

A line's comment starts at the first `#` outside double quotes. The tokens of a line are its
maximal runs of non-blank characters, each with the column (from 1) of its first character. A
bracketed axis that blanks split apart (`[1, 0, 0]`) is joined back into one token.

Main statements: `stripComment_noHash` (a line without `#` keeps all of its text),
`texts_joinBrackets` (joining keeps the text of the tokens, in order) and
`columns_joinBrackets_sublist` (the columns after joining are some of those before).
-/

namespace Keyframes.Source
open Keyframes.Text

/-- A token: its text and the column of its first character. -/
structure Token where
  text : String
  column : Nat
deriving Repr, BEq, DecidableEq, Inhabited

/-- The text before the first `#` that stands outside double quotes; `quoted` tells whether the
text starts inside quotes. -/
def stripCommentFrom (quoted : Bool) : List Char → List Char
  | [] => []
  | c :: rest =>
    if c = '"' then c :: stripCommentFrom (!quoted) rest
    else if c = '#' ∧ !quoted then []
    else c :: stripCommentFrom quoted rest

/-- The text of a line before its comment. -/
def stripComment (cs : List Char) : List Char :=
  stripCommentFrom false cs

theorem stripCommentFrom_noHash (quoted : Bool) (cs : List Char) (h : '#' ∉ cs) :
    stripCommentFrom quoted cs = cs := by
  induction cs generalizing quoted with
  | nil => rfl
  | cons c rest ih =>
    have hc : c ≠ '#' := fun e => h (e ▸ List.mem_cons_self)
    have hr : '#' ∉ rest := fun m => h (List.mem_cons_of_mem c m)
    unfold stripCommentFrom
    split
    · rw [ih _ hr]
    · rw [if_neg (fun e => hc e.1), ih _ hr]

theorem stripComment_noHash (cs : List Char) (h : '#' ∉ cs) : stripComment cs = cs :=
  stripCommentFrom_noHash false cs h

/-- The token read so far, if any: its characters reversed, and its column. -/
def pendingToken (current : List Char) (start : Nat) : List Token :=
  if current.isEmpty then [] else [⟨String.ofList current.reverse, start⟩]

/-- The tokens of the rest of a line whose first character is at column `col`; `current` holds
the characters of the token being read (reversed), which starts at column `start`. -/
def tokensFrom (col : Nat) (current : List Char) (start : Nat) : List Char → List Token
  | [] => pendingToken current start
  | c :: rest =>
    if isBlank c then pendingToken current start ++ tokensFrom (col + 1) [] 0 rest
    else if current.isEmpty then tokensFrom (col + 1) [c] col rest
    else tokensFrom (col + 1) (c :: current) start rest

/-- The tokens of a line. -/
def tokens (cs : List Char) : List Token :=
  tokensFrom 1 [] 0 cs

/-- Joins the tokens of a bracketed axis: a token that opens `[` without closing it takes in the
following tokens up to the first that holds `]` (or up to the end), and keeps its column. -/
def joinFrom (pending : Option Token) : List Token → List Token
  | [] => pending.toList
  | t :: rest =>
    match pending with
    | some p =>
      let joined : Token := ⟨p.text ++ t.text, p.column⟩
      if t.text.toList.contains ']' then joined :: joinFrom none rest
      else joinFrom (some joined) rest
    | none =>
      if t.text.toList.head? = some '[' ∧ !t.text.toList.contains ']' then joinFrom (some t) rest
      else t :: joinFrom none rest

/-- The tokens of a line with every split bracketed axis joined. -/
def joinBrackets (ts : List Token) : List Token :=
  joinFrom none ts

theorem texts_joinFrom (pending : Option Token) (ts : List Token) :
    String.join ((joinFrom pending ts).map (·.text)) =
      String.join (pending.toList.map (·.text)) ++ String.join (ts.map (·.text)) := by
  induction ts generalizing pending with
  | nil => simp [joinFrom]
  | cons t rest ih =>
    cases pending with
    | some p =>
      simp only [joinFrom]
      split
      · simp [ih, String.append_assoc]
      · simp [ih, String.append_assoc]
    | none =>
      simp only [joinFrom]
      split
      · simp [ih]
      · simp [ih]

theorem texts_joinBrackets (ts : List Token) :
    String.join ((joinBrackets ts).map (·.text)) = String.join (ts.map (·.text)) := by
  simp [joinBrackets, texts_joinFrom]

theorem columns_joinFrom_sublist (pending : Option Token) (ts : List Token) :
    ((joinFrom pending ts).map (·.column)).Sublist
      (pending.toList.map (·.column) ++ ts.map (·.column)) := by
  induction ts generalizing pending with
  | nil => simp [joinFrom]
  | cons t rest ih =>
    cases pending with
    | some p =>
      simp only [joinFrom]
      split
      · simp only [List.map_cons, Option.toList_some, List.cons_append]
        exact List.Sublist.cons_cons _ ((ih none).trans (by simp))
      · refine (ih _).trans ?_
        simp only [Option.toList_some, List.map_cons, List.map_nil, List.cons_append,
          List.nil_append]
        exact List.Sublist.cons_cons _ (List.sublist_cons_self _ _)
    | none =>
      simp only [joinFrom]
      split
      · refine (ih _).trans ?_
        simp
      · simp only [List.map_cons, Option.toList_none, List.map_nil, List.nil_append]
        exact List.Sublist.cons_cons _ ((ih none).trans (by simp))

theorem columns_joinBrackets_sublist (ts : List Token) :
    ((joinBrackets ts).map (·.column)).Sublist (ts.map (·.column)) := by
  simpa [joinBrackets] using columns_joinFrom_sublist none ts

end Keyframes.Source
