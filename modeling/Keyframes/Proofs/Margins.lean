import Keyframes.Proofs.Columns

/-!
# What stands around the text of a line

A line says what its text before the comment says. Blanks in front of a line move every column
it reports by their number and change nothing else; a comment after a line that is no raw
command and whose double quotes are paired changes nothing at all.

Blanks in front move every token by their number (`tokens_blanks_append`). The checks of a
keyword read the column of a token only to report it and to cut off the text before it, which
loses the blanks with the rest, so the statement is the same and its faults move
(`Words.statement_indent`). A raw command finds its first slash as many columns later. A `#`
after paired quotes opens a comment (`stripCommentFrom_append_hash`), so the line's text before
its comment is the same with or without one after it.

Main statement: `indent_and_comment_inert`.
-/

namespace Keyframes

/-- A line error moved `k` columns to the right; every other fault stays as it is. -/
def Fault.shiftColumn (k : Nat) : Fault → Fault
  | .line e => .line { e with column := e.column + k }
  | f => f

namespace Source
open Keyframes.Text

/-- A token moved `k` columns to the right. Reducible, so that the moved token's text is its
text also inside the decidability instances of the checks that read it. -/
abbrev Token.shift (k : Nat) (t : Token) : Token :=
  ⟨t.text, t.column + k⟩

/-- A fault of a line moved `k` columns to the right. -/
def moveFault (k : Nat) (e : Nat × LineFault) : Nat × LineFault :=
  (e.1 + k, e.2)

@[simp] theorem Token.shift_text (k : Nat) (t : Token) : (t.shift k).text = t.text := rfl

@[simp] theorem Token.shift_column (k : Nat) (t : Token) : (t.shift k).column = t.column + k := rfl

/-! ## The checks of an argument report the column of its token and read nothing else of it -/

section Shift
variable (k : Nat)

theorem failAt_shift {α : Type} (t : Token) (f : LineFault) :
    (failAt (t.shift k) f : Checked α) = (failAt t f).mapError (moveFault k) := rfl

theorem nameArg_shift (t : Token) : nameArg (t.shift k) = (nameArg t).mapError (moveFault k) := by
  unfold nameArg
  by_cases named : isName t.text <;> simp [named, failAt_shift]

theorem integerArg_shift (t : Token) : integerArg (t.shift k) = (integerArg t).mapError (moveFault k) := by
  unfold integerArg
  dsimp only
  cases integer? t.text.toList with
  | none => simp [failAt_shift]
  | some v =>
    by_cases long : Decimal.maxIntegerDigits < (t.text.toList.filter isDigit).length <;>
      simp [long, failAt_shift]

theorem ticksArg_shift (t : Token) : ticksArg (t.shift k) = (ticksArg t).mapError (moveFault k) := by
  unfold ticksArg
  rw [integerArg_shift, mapError_bind]
  congr 1
  funext v
  by_cases negative : v < 0 <;> simp [negative, failAt_shift]

theorem numberIn_shift (t : Token) (body : List Char) (fault : LineFault) :
    numberIn (t.shift k) body fault = (numberIn t body fault).mapError (moveFault k) := by
  unfold numberIn
  cases number? body with
  | none => simp [failAt_shift]
  | some v => by_cases finite : Binary.isSingleFinite v <;> simp [finite, failAt_shift]

theorem numberArg_shift (t : Token) : numberArg (t.shift k) = (numberArg t).mapError (moveFault k) :=
  numberIn_shift k t _ _

theorem coordinateArg_shift (t : Token) :
    coordinateArg (t.shift k) = (coordinateArg t).mapError (moveFault k) := by
  unfold coordinateArg
  dsimp only
  split <;> simp [mapError_map, numberIn_shift]

theorem axisArg_shift (t : Token) : axisArg (t.shift k) = (axisArg t).mapError (moveFault k) := by
  unfold axisArg
  dsimp only
  generalize (lowerWord t.text).toList = text
  split_ifs <;> try rfl
  -- three numbers between brackets: each is read at the token, and so are their faults
  rw [mapError_bind, mapError_mapM]
  simp only [numberIn_shift]
  congr 1
  funext values
  split
  · split_ifs <;> rfl
  · rfl

theorem blockProperties_shift (stateToken : Token) (state : String) (body : List Char) :
    blockProperties (stateToken.shift k) state body =
      (blockProperties stateToken state body).mapError (moveFault k) := by
  unfold blockProperties
  split_ifs
  · rfl
  · rw [mapError_mapM]
    congr 1
    funext part
    split_ifs <;> rfl

end Shift

/-! ## Blanks in front of the words of a line -/

/-- The words of a line with the blanks `B` in front: the same text after them, and every token
moved by their number. -/
def Words.indent (B : List Char) (w : Words) : Words :=
  ⟨B ++ w.text, w.keyword.shift B.length, w.args.map (Token.shift B.length)⟩

section Indent
variable (B : List Char) (w : Words)

@[simp] theorem Words.indent_keyword : (w.indent B).keyword = w.keyword.shift B.length := rfl

theorem Words.arg_mem (i : Nat) : w.arg i ∈ w.keyword :: w.args := by
  unfold Words.arg
  rw [List.getD_eq_getElem?_getD]
  cases found : w.args[i]? with
  | none => exact List.mem_cons_self
  | some t => exact List.mem_cons_of_mem _ (List.mem_of_getElem? found)

theorem Words.indent_arg (i : Nat) : (w.indent B).arg i = (w.arg i).shift B.length :=
  List.getD_map w.args w.keyword (Token.shift B.length)

theorem Words.indent_rest (i : Nat) (placed : 1 ≤ (w.arg i).column) : (w.indent B).rest i = w.rest i := by
  unfold Words.rest
  rw [Words.indent_arg, Token.shift_column]
  -- the blanks in front are cut off with the text before the token
  have cut : (w.arg i).column + B.length - 1 = B.length + ((w.arg i).column - 1) := by omega
  rw [cut]
  exact congrArg (fun cs => String.ofList (trim cs)) (List.drop_length_add_append _)

theorem Words.indent_expect (count : Nat) (atLeast : Bool) :
    (w.indent B).expect count atLeast = (w.expect count atLeast).mapError (moveFault B.length) := by
  unfold Words.expect
  by_cases wrong : (if atLeast then w.args.length < count else w.args.length ≠ count) <;>
    simp [Words.indent, wrong, failAt_shift]

theorem joinFrom_shift (k : Nat) : ∀ (pending : Option Token) (ts : List Token),
    joinFrom (pending.map (Token.shift k)) (ts.map (Token.shift k)) = (joinFrom pending ts).map (Token.shift k)
  | pending, [] => by cases pending <;> rfl
  | none, t :: rest => by
    simp only [Option.map_none, List.map_cons, joinFrom]
    split_ifs
    · exact joinFrom_shift k (some t) rest
    · rw [List.map_cons, ← joinFrom_shift k none rest]
      rfl
  | some p, t :: rest => by
    simp only [Option.map_some, List.map_cons, joinFrom]
    split_ifs
    · rw [List.map_cons, ← joinFrom_shift k none rest]
      rfl
    · exact joinFrom_shift k (some ⟨p.text ++ t.text, p.column⟩) rest

theorem Words.indent_joinBrackets :
    { w.indent B with args := joinBrackets (w.indent B).args } =
      ({ w with args := joinBrackets w.args } : Words).indent B := by
  simp only [Words.indent, joinBrackets]
  rw [← joinFrom_shift B.length none w.args]
  rfl

/-- Blanks in front of the words move every fault the keyword's checks report by their number,
and change nothing else: the checks read a token's column only to report it and to cut off the
text before it. -/
theorem Words.statement_indent (placed : ∀ t ∈ w.keyword :: w.args, 1 ≤ t.column) :
    (w.indent B).statement = w.statement.mapError (moveFault B.length) := by
  have rest : ∀ i, (w.indent B).rest i = w.rest i := fun i =>
    Words.indent_rest B w i (placed _ (Words.arg_mem w i))
  have keyword : (w.indent B).keyword.text = w.keyword.text := rfl
  unfold Words.statement
  rw [keyword]
  cases Keyword.ofWord? (lowerWord w.keyword.text) with
  | none => rfl
  | some keyword =>
    cases keyword
    case rotate =>
      -- a rotation reads the joined tokens, which the blanks move as they move the others
      dsimp only
      rw [Words.indent_joinBrackets]
      simp only [mapError_bind, mapError_pure, Words.indent_expect, Words.indent_arg,
        nameArg_shift, axisArg_shift, numberArg_shift, ticksArg_shift]
    case spawn =>
      simp only [mapError_bind, Words.indent_expect, Words.indent_arg, Token.shift_text]
      split <;> simp [mapError_bind, mapError_map, nameArg_shift, failAt_shift]
    all_goals
      simp only [mapError_bind, mapError_pure, Words.indent_expect, Words.indent_arg, rest,
        nameArg_shift, ticksArg_shift, coordinateArg_shift, numberArg_shift, integerArg_shift,
        blockProperties_shift, failAt_shift, apply_ite (Except.mapError (moveFault B.length))]

end Indent

/-! ## Blanks in front of a line -/

theorem tokensFrom_nil_start (col s s' : Nat) (cs : List Char) :
    tokensFrom col [] s cs = tokensFrom col [] s' cs := by
  cases cs with
  | nil => rfl
  | cons c rest => simp [tokensFrom, pendingToken]

/-- Moving the start of a text `k` columns moves every token of it by as many. -/
theorem tokensFrom_shift (k : Nat) : ∀ (col start : Nat) (current cs : List Char),
    tokensFrom (col + k) current (start + k) cs = (tokensFrom col current start cs).map (Token.shift k)
  | col, start, current, [] => by
    unfold tokensFrom pendingToken
    split <;> rfl
  | col, start, current, c :: rest => by
    unfold tokensFrom
    by_cases blank : isBlank c = true
    · -- a blank ends the token being read; the next starts afresh
      have later := tokensFrom_shift k (col + 1) 0 [] rest
      rw [Nat.zero_add, tokensFrom_nil_start _ k 0, Nat.add_right_comm] at later
      simp only [if_pos blank, List.map_append, later, pendingToken]
      split <;> rfl
    · rw [if_neg blank, if_neg blank, Nat.add_right_comm]
      split
      · exact tokensFrom_shift k (col + 1) col [c] rest
      · exact tokensFrom_shift k (col + 1) start (c :: current) rest

theorem tokensFrom_blanks_append (col start : Nat) {B : List Char} (blank : ∀ c ∈ B, isBlank c = true)
    (cs : List Char) : tokensFrom col [] start (B ++ cs) = tokensFrom (col + B.length) [] start cs := by
  induction B generalizing col start with
  | nil => rfl
  | cons b rest ih =>
    have isB := blank b List.mem_cons_self
    rw [List.cons_append, tokensFrom, if_pos isB, ih _ _ fun c mem => blank c (List.mem_cons_of_mem b mem),
      tokensFrom_nil_start _ 0 start, List.length_cons, Nat.add_assoc, Nat.add_comm 1]
    rfl

/-- Blanks in front of a text move its tokens by their number. -/
theorem tokens_blanks_append {B : List Char} (blank : ∀ c ∈ B, isBlank c = true) (cs : List Char) :
    tokens (B ++ cs) = (tokens cs).map (Token.shift B.length) := by
  unfold tokens
  rw [tokensFrom_blanks_append 1 0 blank, tokensFrom_nil_start _ 0 (0 + B.length), tokensFrom_shift]

theorem tokens_placed (cs : List Char) : ∀ t ∈ tokens cs, 1 ≤ t.column :=
  (tokensFrom_increasing 1 0 [] cs (fun nonempty => absurd rfl nonempty)).2

/-- What the text of a line says when the line is no raw command: nothing if it has no token,
else the statement of its keyword. -/
def checkText (text : List Char) : Checked (Option Statement) :=
  match tokens text with
  | [] => .ok none
  | keyword :: args => (Words.statement ⟨text, keyword, args⟩).map some

theorem checkLine_eq_checkText {line : String} (notRaw : (trim line.toList).head? ≠ some '/') :
    checkLine line = checkText (stripComment line.toList) := by
  unfold checkLine
  dsimp only
  split
  · rename_i rest raw
    rw [raw] at notRaw
    exact absurd rfl notRaw
  · rfl

theorem checkText_blanks_append {B : List Char} (blank : ∀ c ∈ B, isBlank c = true) (text : List Char) :
    checkText (B ++ text) = (checkText text).mapError (moveFault B.length) := by
  unfold checkText
  rw [tokens_blanks_append blank]
  have placed := tokens_placed text
  cases found : tokens text with
  | nil => rfl
  | cons keyword args =>
    rw [found] at placed
    exact (congrArg (Except.map some) (Words.statement_indent B ⟨text, keyword, args⟩ placed)).trans
      (mapError_map some _ _).symm

theorem trim_blanks_append {B : List Char} (blank : ∀ c ∈ B, isBlank c = true) (cs : List Char) :
    trim (B ++ cs) = trim cs := by
  rw [trim_eq, trim_eq, List.dropWhile_append_of_pos blank]

/-- Blanks in front of a line move every fault it reports by their number. -/
theorem checkLine_blanks_append {W L : String} (blank : ∀ c ∈ W.toList, isBlank c = true) :
    checkLine (W ++ L) = (checkLine L).mapError (moveFault W.length) := by
  have trimmed := trim_blanks_append blank L.toList
  by_cases raw : (trim L.toList).head? = some '/'
  · -- a raw command: the same command, with its first slash as many columns later
    obtain ⟨rest, slash⟩ : ∃ rest, trim L.toList = '/' :: rest := by
      cases found : trim L.toList with
      | nil => rw [found] at raw; cases raw
      | cons c rest => rw [found] at raw; cases raw; exact ⟨rest, rfl⟩
    have noSlash : '/' ∉ W.toList := fun mem => by
      have := blank '/' mem
      cases this
    unfold checkLine
    simp only [String.toList_append, trimmed, slash, List.idxOf_append, if_neg noSlash]
    split <;> simp [Except.mapError, moveFault, String.length_toList, Nat.add_right_comm]
  · have notRaw : (trim (W ++ L).toList).head? ≠ some '/' := by
      rwa [String.toList_append, trimmed]
    rw [checkLine_eq_checkText notRaw, checkLine_eq_checkText raw, String.toList_append, stripComment,
      stripCommentFrom_blanks false blank, ← stripComment, checkText_blanks_append blank,
      String.length_toList]

/-- Blanks in front of a line move the column of its line error by their number, and change
nothing else. -/
theorem readLine_blanks_append (path : String) (number : Int) {W L : String}
    (blank : ∀ c ∈ W.toList, isBlank c = true) :
    readLine path number (W ++ L) = (readLine path number L).mapError (Fault.shiftColumn W.length) := by
  unfold readLine
  rw [checkLine_blanks_append blank]
  cases checkLine L with
  | ok st => rfl
  | error fault =>
    obtain ⟨c, f⟩ := fault
    simp only [Except.mapError, moveFault]
    split <;> rfl

/-! ## A comment after a line -/

/-- A `#` after a text whose double quotes are paired, counting the quote the text starts in,
opens a comment. -/
theorem stripCommentFrom_append_hash (C : List Char) :
    ∀ (quoted : Bool) (L : List Char), Even (quoted.toNat + L.count '"') →
      stripCommentFrom quoted (L ++ '#' :: C) = stripCommentFrom quoted L
  | quoted, [], paired => by
    cases quoted
    · rfl
    · simp at paired
  | quoted, c :: rest, paired => by
    rw [List.cons_append]
    unfold stripCommentFrom
    by_cases quote : c = '"'
    · subst quote
      rw [if_pos rfl, if_pos rfl, stripCommentFrom_append_hash C (!quoted) rest]
      -- the quote turns the state over, and the count of the rest has the other parity
      rw [List.count_cons_self, Nat.even_iff] at paired
      rw [Nat.even_iff]
      cases quoted <;> simp only [Bool.not_false, Bool.not_true, Bool.toNat_true, Bool.toNat_false] at paired ⊢ <;>
        omega
    · rw [if_neg quote, if_neg quote]
      split
      · rfl
      · rw [stripCommentFrom_append_hash C quoted rest (by simpa [List.count_cons, quote] using paired)]

theorem trim_append_hash_head (L C : List Char) (notRaw : (trim L).head? ≠ some '/') :
    (trim (L ++ '#' :: C)).head? ≠ some '/' := by
  rw [trim_head, List.dropWhile_append]
  rw [trim_head] at notRaw
  split
  · rename_i blanks
    simp [isBlank]
  · rename_i solid
    cases found : L.dropWhile isBlank with
    | nil => simp [found] at solid
    | cons d ds =>
      rw [found] at notRaw
      simpa using notRaw

/-- A comment after a line that is no raw command and whose double quotes are paired changes
nothing the line says. -/
theorem checkLine_append_comment {L C : String} (notRaw : (trim L.toList).head? ≠ some '/')
    (paired : Even (L.toList.count '"')) : checkLine (L ++ "#" ++ C) = checkLine L := by
  have whole : (L ++ "#" ++ C).toList = L.toList ++ '#' :: C.toList := by simp
  have notRaw' : (trim (L ++ "#" ++ C).toList).head? ≠ some '/' := by
    rw [whole]
    exact trim_append_hash_head _ _ notRaw
  rw [checkLine_eq_checkText notRaw', checkLine_eq_checkText notRaw, whole, stripComment,
    stripCommentFrom_append_hash C.toList false L.toList (by simpa using paired)]
  rfl

theorem readLine_append_comment (path : String) (number : Int) {L C : String}
    (notRaw : (trim L.toList).head? ≠ some '/') (paired : Even (L.toList.count '"')) :
    readLine path number (L ++ "#" ++ C) = readLine path number L := by
  unfold readLine
  rw [checkLine_append_comment notRaw paired]

/-- A line says what its text before the comment says: blanks in front of it move the column
of its fault by their number and change nothing else, and a comment after a line that is no raw
command and whose double quotes are paired changes nothing at all. -/
theorem indent_and_comment_inert :
    (∀ (path : String) (number : Int) (W L : String), (∀ c ∈ W.toList, isBlank c = true) →
      readLine path number (W ++ L) = (readLine path number L).mapError (Fault.shiftColumn W.length)) ∧
    ∀ (path : String) (number : Int) (L C : String), (trim L.toList).head? ≠ some '/' →
      Even (L.toList.count '"') → readLine path number (L ++ "#" ++ C) = readLine path number L :=
  ⟨fun _ _ _ _ blank => readLine_blanks_append _ _ blank,
    fun _ _ _ _ notRaw paired => readLine_append_comment _ _ notRaw paired⟩

/-- Two blanks before a tick count that is no integer move its fault two columns; a comment
after a text whose quoted part holds a `#` changes nothing. -/
theorem indent_and_comment_inert_samples :
    readLine "anim.dspa" 3 ("  " ++ "wait x") =
        (readLine "anim.dspa" 3 "wait x").mapError (Fault.shiftColumn 2) ∧
      readLine "anim.dspa" 4 ("text sign \"#1\" " ++ "#" ++ " note") =
        readLine "anim.dspa" 4 "text sign \"#1\" " :=
  ⟨indent_and_comment_inert.1 "anim.dspa" 3 "  " "wait x" (by simp [isBlank]),
    indent_and_comment_inert.2 "anim.dspa" 4 "text sign \"#1\" " " note" (by simp [trim_eq, isBlank])
      (by simp)⟩

end Source
end Keyframes
