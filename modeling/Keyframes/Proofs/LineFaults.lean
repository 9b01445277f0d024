import Keyframes.Source.Program
import Keyframes.Proofs.Except
import Keyframes.Proofs.OneLine

/-!
# Reading a source, line by line

`parseSource` folds over the lines of a source, carrying the statements, the faults and the
line of the first object statement. Here that fold is said without its state. Each line is read
on its own, the first line that declares the object is found once, and an object line after it
reads as a fault that names it (`lineVerdict`). Then the first line whose fault is no line
fault ends the reading with that fault; otherwise the reading fails with every line fault, in
line order; otherwise it gives every statement, in line order (`collect`).

A fault that is no line fault comes from an integer with more digits than conversion takes. A
`wait` line whose tick count has more than `Decimal.maxIntegerDigits` digits is such a line:
it ends the reading of any source that holds it, and the faults of the lines before it are
lost.

Main statement: `parseSource_eq_collect`.
-/

namespace Keyframes.Source
open Keyframes.Text

/-- The outcome of reading a line, given with its number. -/
def lineOutcome (path : String) (entry : List Char × Nat) : Except Fault (Option Statement) :=
  readLine path entry.2 (String.ofList entry.1)

/-- Whether an outcome is an object statement. -/
def declaresObject : Except Fault (Option Statement) → Bool
  | .ok (some (.objectName _ _)) => true
  | _ => false

/-- The number of the first line that declares the object. -/
def firstObjectLine (path : String) (entries : List (List Char × Nat)) : Option Nat :=
  (entries.find? fun e => declaresObject (lineOutcome path e)).map (·.2)

/-- What the outcome of line `n` contributes once the first object line is known: an object
line after it is a fault that names it, at the column of its first character that is not
blank. -/
def verdict (path : String) (first : Option Nat) (line : List Char) (n : Nat) :
    Except Fault (Option Statement) → Except Fault (Option Statement)
  | .ok (some (.objectName o a)) =>
    match first with
    | some k =>
      if k < n then .error (.line ((LineFault.objectRedeclared k).at path n (leadingBlanks line + 1)))
      else .ok (some (.objectName o a))
    | none => .ok (some (.objectName o a))
  | outcome => outcome

/-- The verdict on a numbered line. -/
def lineVerdict (path : String) (first : Option Nat) (entry : List Char × Nat) :
    Except Fault (Option Statement) :=
  verdict path first entry.1 entry.2 (lineOutcome path entry)

/-- The fault of a verdict that ends the reading: any fault but a line fault. -/
def escapeOf : Except Fault (Option Statement) → Option Fault
  | .error (.line _) => none
  | .error f => some f
  | .ok _ => none

/-- The line fault of a verdict. -/
def faultOf : Except Fault (Option Statement) → Option LineError
  | .error (.line e) => some e
  | _ => none

/-- The statement of a verdict. -/
def statementOf : Except Fault (Option Statement) → Option Statement
  | .ok s => s
  | .error _ => none

/-- The reading of numbered lines, said line by line. -/
def collect (path : String) (entries : List (List Char × Nat)) : Except Fault Program :=
  let verdicts := entries.map (lineVerdict path (firstObjectLine path entries))
  match verdicts.findSome? escapeOf with
  | some f => .error f
  | none =>
    let faults := verdicts.filterMap faultOf
    if faults.isEmpty then .ok ⟨path, verdicts.filterMap statementOf⟩ else .error (.lines faults)

theorem verdict_of_declaresObject_eq_false {path : String} {line : List Char} {n : Nat}
    {o : Except Fault (Option Statement)} (first : Option Nat) (plain : declaresObject o = false) :
    verdict path first line n o = o := by
  unfold verdict
  split
  · cases plain
  · rfl

theorem escapeOf_error {f : Fault} (notLine : ∀ e, f ≠ .line e) : escapeOf (.error f) = some f := by
  unfold escapeOf
  split
  · rename_i e same
    cases same
    exact absurd rfl (notLine e)
  · rename_i same
    cases same
    rfl
  · rename_i same
    cases same

theorem declaresObject_statement {s : Statement} (notObject : ∀ o a, s ≠ .objectName o a) :
    declaresObject (.ok (some s)) = false := by
  unfold declaresObject
  split
  · rename_i o a same
    cases same
    exact absurd rfl (notObject o a)
  · rfl

theorem firstObjectLine_cons (path : String) (e : List Char × Nat) (rest : List (List Char × Nat)) :
    firstObjectLine path (e :: rest) =
      (if declaresObject (lineOutcome path e) then some e.2 else none).or
        (firstObjectLine path rest) := by
  unfold firstObjectLine
  rw [List.find?_cons]
  cases declaresObject (lineOutcome path e) <;> rfl

/-- One line taken into a reading, said through its verdict: `first` is the first object line
once this line is read. -/
theorem take_eq (path : String) (r : Reading) (line : List Char) (n : Nat)
    (o : Except Fault (Option Statement)) (before : ∀ k ∈ r.objectLine, k < n) :
    r.take path n line o =
      let first := r.objectLine.or (if declaresObject o then some n else none)
      let v := verdict path first line n o
      match escapeOf v with
      | some f => .error f
      | none => .ok { statements := (statementOf v).toList ++ r.statements
                      faults := (faultOf v).toList ++ r.faults
                      objectLine := first } := by
  unfold Reading.take
  split
  · -- a line fault is kept
    simp [declaresObject, verdict, escapeOf, faultOf, statementOf]
  · -- any other fault ends the reading
    rename_i f notLine
    simp only [verdict, escapeOf_error notLine]
  · simp [declaresObject, verdict, escapeOf, faultOf, statementOf]
  · -- an object line: the first one is kept, a later one is a fault that names the first
    cases object : r.objectLine with
    | some k =>
      have earlier : k < n := before k object
      simp [declaresObject, verdict, earlier, escapeOf, faultOf, statementOf]
    | none =>
      simp [declaresObject, verdict, escapeOf, faultOf, statementOf]
  · rename_i s notObject
    have plain := declaresObject_statement notObject
    simp [plain, verdict_of_declaresObject_eq_false _ plain, escapeOf, faultOf, statementOf]

theorem filterMap_cons_reverse_append {α β : Type} (f : α → Option β) (a : α) (l : List α)
    (acc : List β) :
    (l.filterMap f).reverse ++ ((f a).toList ++ acc) = ((a :: l).filterMap f).reverse ++ acc := by
  cases fa : f a <;> simp [fa]

/-- The object line once a line is read lies before the lines after it. -/
theorem objectLine_before {r : Reading} {s : Nat} {o : Except Fault (Option Statement)}
    (before : ∀ k ∈ r.objectLine, k < s) :
    ∀ k ∈ r.objectLine.or (if declaresObject o then some s else none), k < s + 1 := by
  intro k mem
  cases object : r.objectLine with
  | some j =>
    rw [object, Option.some_or, Option.mem_some_iff] at mem
    exact mem ▸ Nat.lt_succ_of_lt (before j object)
  | none =>
    rw [object, Option.none_or] at mem
    split at mem
    · rw [Option.mem_some_iff] at mem
      omega
    · cases mem

/-- The verdict on a line does not depend on the lines after it. -/
theorem lineVerdict_head (path : String) (r : Reading) (line : List Char) (s : Nat)
    (rest : List (List Char × Nat)) :
    lineVerdict path (r.objectLine.or (firstObjectLine path ((line, s) :: rest))) (line, s) =
      verdict path (r.objectLine.or (if declaresObject (lineOutcome path (line, s)) then some s
        else none)) line s (lineOutcome path (line, s)) := by
  unfold lineVerdict
  cases declared : declaresObject (lineOutcome path (line, s)) with
  | false => rw [verdict_of_declaresObject_eq_false _ declared, verdict_of_declaresObject_eq_false _ declared]
  | true =>
    rw [firstObjectLine_cons, declared]
    cases r.objectLine <;> rfl

/-- The statements, the faults and the first object line gathered from numbered lines whose
numbers all come after the object line gathered so far. -/
theorem foldlM_take_eq (path : String) :
    ∀ (ls : List (List Char)) (s : Nat) (r : Reading), (∀ k ∈ r.objectLine, k < s) →
      (ls.zipIdx s).foldlM (fun r e => r.take path e.2 e.1 (lineOutcome path e)) r =
        let first := r.objectLine.or (firstObjectLine path (ls.zipIdx s))
        let verdicts := (ls.zipIdx s).map (lineVerdict path first)
        match verdicts.findSome? escapeOf with
        | some f => .error f
        | none => .ok { statements := (verdicts.filterMap statementOf).reverse ++ r.statements
                        faults := (verdicts.filterMap faultOf).reverse ++ r.faults
                        objectLine := first }
  | [], s, r, _ => by
    simp [firstObjectLine]
    rfl
  | line :: rest, s, r, before => by
    rw [List.zipIdx_cons, List.foldlM_cons, take_eq path r line s _ before]
    -- the first object line seen from the whole list is the one once this line is read,
    -- or else the first of the lines after it
    have first_eq : r.objectLine.or (firstObjectLine path ((line, s) :: rest.zipIdx (s + 1))) =
        (r.objectLine.or (if declaresObject (lineOutcome path (line, s)) then some s else none)).or
          (firstObjectLine path (rest.zipIdx (s + 1))) := by
      rw [firstObjectLine_cons, Option.or_assoc]
    simp only [List.map_cons, lineVerdict_head, List.findSome?_cons]
    rw [first_eq]
    generalize verdict path _ line s (lineOutcome path (line, s)) = v
    cases escaped : escapeOf v with
    | some f => rfl
    | none =>
      simp only [ok_bind]
      rw [foldlM_take_eq path rest (s + 1) _ (objectLine_before before)]
      simp only []
      cases (List.map (lineVerdict path _) (rest.zipIdx (s + 1))).findSome? escapeOf with
      | some f => rfl
      | none =>
        simp only [filterMap_cons_reverse_append]

/-- `readLines` as a fold over the lines numbered from 1. -/
theorem readLines_eq (path : String) (ls : List (List Char)) :
    readLines path ls =
      (ls.zipIdx 1).foldlM (fun r e => r.take path e.2 e.1 (lineOutcome path e)) {} := by
  unfold readLines
  rw [List.range_eq_range']
  -- both folds number the lines from `s + 1`
  suffices shifted : ∀ (ls : List (List Char)) (s : Nat) (r : Reading),
      ((List.range' s ls.length).zip ls).foldlM (fun r e =>
        r.take path (e.1 + 1) e.2 (readLine path (e.1 + 1) (String.ofList e.2))) r =
      (ls.zipIdx (s + 1)).foldlM (fun r e => r.take path e.2 e.1 (lineOutcome path e)) r from
    shifted ls 0 {}
  intro ls
  induction ls with
  | nil => intro s r; rfl
  | cons line rest ih =>
    intro s r
    rw [List.length_cons, List.range'_succ, List.zip_cons_cons, List.foldlM_cons,
      List.zipIdx_cons, List.foldlM_cons]
    simp only [lineOutcome, Int.natCast_add_one, ih]

theorem parseSource_eq_collect (source path : String) :
    parseSource source path = collect path ((lines source.toList).zipIdx 1) := by
  unfold parseSource collect
  rw [readLines_eq, foldlM_take_eq path _ 1 {} nofun]
  simp only [Option.none_or]
  cases (List.map (lineVerdict path _) _).findSome? escapeOf with
  | some f => rfl
  | none =>
    dsimp only
    rw [ok_bind]
    simp only [List.append_nil, List.isEmpty_reverse, List.reverse_reverse]

/-! ### Faults that end the reading -/

/-- A line fails with a fault of the line, or with the value error of an integer that has more
digits than conversion takes. -/
theorem readLine_error {path : String} {number : Int} {line : String} {f : Fault}
    (failed : readLine path number line = .error f) :
    (∃ e, f = .line e) ∨ ∃ digits, f = .refused (Decimal.tooManyDigitsMessage digits) := by
  unfold readLine at failed
  cases checked : checkLine line with
  | ok s =>
    rw [checked] at failed
    cases failed
  | error fault =>
    obtain ⟨column, lf⟩ := fault
    rw [checked] at failed
    simp only [Except.mapError, Except.error.injEq] at failed
    by_cases escapes : lf.escapes = true
    · -- only an integer with too many digits escapes
      rw [if_pos escapes] at failed
      cases lf with
      | tooManyDigits digits => exact .inr ⟨digits, failed.symm⟩
      | _ => cases escapes
    · rw [if_neg escapes] at failed
      exact .inl ⟨_, failed.symm⟩

theorem dropBlanks_of_head {cs : List Char} (solid : ∀ c ∈ cs.head?, isBlank c = false) :
    dropBlanks cs = cs := by
  cases cs with
  | nil => rfl
  | cons c rest => simp [dropBlanks, solid c rfl]

theorem trim_eq_self {cs : List Char} (first : ∀ c ∈ cs.head?, isBlank c = false)
    (last : ∀ c ∈ cs.getLast?, isBlank c = false) : trim cs = cs := by
  unfold trim
  rw [dropBlanks_of_head first, dropBlanks_of_head (by rwa [List.head?_reverse]),
    List.reverse_reverse]

/-- A run of characters that are not blank, after the first character of a token, ends the
line as part of that token. -/
theorem tokensFrom_solid (col start : Nat) :
    ∀ (current cs : List Char), current ≠ [] → (∀ c ∈ cs, isBlank c = false) →
      tokensFrom col current start cs = [⟨String.ofList (current.reverse ++ cs), start⟩]
  | current, [], nonempty, _ => by
    cases current with
    | nil => exact absurd rfl nonempty
    | cons c rest => simp [tokensFrom, pendingToken]
  | current, c :: rest, nonempty, solid => by
    have blank : isBlank c = false := solid c List.mem_cons_self
    have tail := tokensFrom_solid (col + 1) start (c :: current) rest (List.cons_ne_nil c current)
      fun d mem => solid d (List.mem_cons_of_mem c mem)
    cases current with
    | nil => exact absurd rfl nonempty
    | cons d more => simp [tokensFrom, blank, tail]

theorem isDigit_of_ascii {c : Char} (ascii : c.isDigit = true) : isDigit c = true := by
  simp only [Char.isDigit, Bool.and_eq_true, decide_eq_true_eq] at ascii
  have bounds : 48 ≤ c.toNat ∧ c.toNat ≤ 57 := ascii
  unfold isDigit
  rw [digitValue_ascii (d := c.toNat - 48) (by omega) (by omega)]
  rfl

theorem isBlank_of_ascii_digit {c : Char} (ascii : c.isDigit = true) : isBlank c = false := by
  simp only [Char.isDigit, Bool.and_eq_true, decide_eq_true_eq] at ascii
  have bounds : 48 ≤ c.toNat ∧ c.toNat ≤ 57 := ascii
  unfold isBlank
  simp only [Bool.or_eq_false_iff, Bool.and_eq_false_iff, beq_eq_false_iff_ne, ne_eq,
    decide_eq_false_iff_not, Nat.not_le]
  omega

theorem integer?_digits {d : Char} {rest : List Char} (unsigned : d ≠ '-')
    (digits : ∀ c ∈ d :: rest, isDigit c = true) : ∃ v, integer? (d :: rest) = some v := by
  have run : (d :: rest).takeWhile isDigit = d :: rest := List.takeWhile_eq_self_iff.2 digits
  simp [integer?, unsigned, digitRun, run]

/-- An integer argument that is a run of more than `Decimal.maxIntegerDigits` ASCII digits is
refused for its length. -/
theorem integerArg_tooLong (ds : List Char) (column : Nat) (ascii : ∀ c ∈ ds, c.isDigit = true)
    (long : Decimal.maxIntegerDigits < ds.length) :
    integerArg ⟨String.ofList ds, column⟩ = .error (column, .tooManyDigits ds.length) := by
  have digits : ∀ c ∈ ds, isDigit c = true := fun c mem => isDigit_of_ascii (ascii c mem)
  obtain ⟨d, rest, rfl⟩ :=
    List.exists_cons_of_ne_nil (List.ne_nil_of_length_pos (Nat.lt_of_le_of_lt (Nat.zero_le _) long))
  have unsigned : d ≠ '-' := by
    intro minus
    have := ascii d List.mem_cons_self
    rw [minus] at this
    cases this
  obtain ⟨v, read⟩ := integer?_digits unsigned digits
  unfold integerArg
  simp only [String.toList_ofList, read, List.filter_eq_self.2 digits]
  rw [if_pos long]
  rfl

theorem statement_wait (text : List Char) (column : Nat) (t : Token) :
    Words.statement ⟨text, ⟨"wait", column⟩, [t]⟩ = (ticksArg t).map .wait := by
  have keyword : Keyword.ofWord? (lowerWord "wait") = some .wait := by decide
  unfold Words.statement
  rw [keyword]
  simp only [Words.expect, Words.arg, List.length_singleton, Bool.false_eq_true, if_false,
    ne_eq, not_true_eq_false, List.getD_cons_zero]
  cases ticksArg t <;> rfl

/-- A `wait` line is read through its tick count. -/
theorem checkLine_wait (ds : List Char) (nonempty : ds ≠ [])
    (solid : ∀ c ∈ ds, isBlank c = false) (unhashed : '#' ∉ ds) :
    checkLine (String.ofList ("wait ".toList ++ ds)) =
      ((ticksArg ⟨String.ofList ds, 6⟩).map .wait).map some := by
  obtain ⟨d, rest, rfl⟩ := List.exists_cons_of_ne_nil nonempty
  have spelled : "wait ".toList = ['w', 'a', 'i', 't', ' '] := by decide
  have noHash : '#' ∉ "wait ".toList ++ d :: rest := by
    rw [spelled, List.mem_append]
    rintro (inWait | inCount)
    · revert inWait
      decide
    · exact unhashed inCount
  have trimmed : trim ("wait ".toList ++ d :: rest) = "wait ".toList ++ d :: rest := by
    refine trim_eq_self (by rw [spelled]; simp; decide) ?_
    rw [List.getLast?_append, List.getLast?_eq_some_getLast (List.cons_ne_nil d rest), Option.some_or]
    intro c mem
    exact solid c (List.mem_of_getLast? mem)
  have tokenized : tokens ("wait ".toList ++ d :: rest) =
      [⟨"wait", 1⟩, ⟨String.ofList (d :: rest), 6⟩] := by
    have tail := tokensFrom_solid 7 6 [d] rest (List.cons_ne_nil d []) fun c mem =>
      solid c (List.mem_cons_of_mem d mem)
    have blanks : isBlank 'w' = false ∧ isBlank 'a' = false ∧ isBlank 'i' = false ∧
        isBlank 't' = false ∧ isBlank ' ' = true := by decide
    rw [spelled]
    simp only [List.cons_append, List.nil_append, tokens, tokensFrom, blanks,
      solid d List.mem_cons_self, tail, pendingToken, List.isEmpty_nil, List.isEmpty_cons,
      if_true, if_false, Bool.false_eq_true, List.reverse_cons, List.reverse_nil]
  unfold checkLine
  simp only [String.toList_ofList, trimmed, stripComment_noHash _ noHash, tokenized, statement_wait]
  rw [spelled]
  rfl

/-- A `wait` line whose tick count is a run of more than `Decimal.maxIntegerDigits` ASCII
digits escapes the checks of its line. -/
theorem readLine_wait_tooLong (path : String) (number : Int) (ds : List Char)
    (ascii : ∀ c ∈ ds, c.isDigit = true) (long : Decimal.maxIntegerDigits < ds.length) :
    readLine path number (String.ofList ("wait ".toList ++ ds)) =
      .error (.refused (Decimal.tooManyDigitsMessage ds.length)) := by
  have nonempty : ds ≠ [] := List.ne_nil_of_length_pos (Nat.lt_of_le_of_lt (Nat.zero_le _) long)
  have solid : ∀ c ∈ ds, isBlank c = false := fun c mem => isBlank_of_ascii_digit (ascii c mem)
  have unhashed : '#' ∉ ds := fun mem => absurd (ascii '#' mem) (by decide)
  unfold readLine
  rw [checkLine_wait ds nonempty solid unhashed]
  unfold ticksArg
  rw [integerArg_tooLong ds 6 ascii long]
  rfl

/-- A source of one `wait` line whose tick count is a run of more than
`Decimal.maxIntegerDigits` ASCII digits fails with the value error of the conversion. -/
theorem parseSource_wait_tooLong (path : String) (ds : List Char)
    (ascii : ∀ c ∈ ds, c.isDigit = true) (long : Decimal.maxIntegerDigits < ds.length) :
    parseSource (String.ofList ("wait ".toList ++ ds)) path =
      .error (.refused (Decimal.tooManyDigitsMessage ds.length)) := by
  have unbroken : ∀ c ∈ "wait ".toList ++ ds, isLineBoundary c = false := by
    intro c mem
    rcases List.mem_append.1 mem with inWait | inCount
    · rw [show "wait ".toList = ['w', 'a', 'i', 't', ' '] by decide] at inWait
      simp only [List.mem_cons, List.not_mem_nil, or_false] at inWait
      rcases inWait with rfl | rfl | rfl | rfl | rfl <;> rfl
    · exact isLineBoundary_of_isDigit (ascii c inCount)
  have single := lines_noBoundary _ (List.append_ne_nil_of_left_ne_nil (by decide) ds) unbroken
  unfold parseSource readLines
  rw [String.toList_ofList, single]
  simp only [List.length_singleton, List.range_one, List.zip_cons_cons, List.zip_nil_right,
    List.foldlM_cons, readLine_wait_tooLong path _ ds ascii long]
  rfl

/-- One `wait` line of 4301 digits: the reading ends with the value error of the conversion,
not with a fault of the line. -/
theorem parseSource_longWait :
    parseSource (String.ofList ("wait ".toList ++ List.replicate 4301 '1')) "a.dspa" =
      .error (.refused (Decimal.tooManyDigitsMessage 4301)) := by
  have ascii : ∀ c ∈ List.replicate 4301 '1', c.isDigit = true := by
    intro c mem
    rw [List.eq_of_mem_replicate mem]
    rfl
  have escaped := parseSource_wait_tooLong "a.dspa" _ ascii (by rw [List.length_replicate]; decide)
  rwa [List.length_replicate] at escaped

end Keyframes.Source
