import Keyframes.Script
import Keyframes.Proofs.Except

/-!
# Texts on one line

A text breaks a line when it holds a line boundary, a character at which `lines` cuts
(`breaksLine`). A script is its lines, each followed by a line feed, so cutting a script at its
boundaries gives back its lines when none of them breaks (`lines_join`).

What a script writes of numbers and values never breaks a line. Numbers are written with digits,
points, signs and exponents (`floatText_unbroken`, `singleText_unbroken`), and quoting a text
as JSON or for a message escapes every boundary (`jsonQuote_unbroken`, `quote_unbroken`), so the
quoted form of every value is on one line (`repr_unbroken`).
-/

namespace Keyframes.Text

/-- Whether a text holds a line boundary. -/
def breaksLine (s : String) : Bool :=
  s.toList.any isLineBoundary

theorem breaksLine_eq_false {s : String} :
    breaksLine s = false ↔ ∀ c ∈ s.toList, isLineBoundary c = false := by
  simp [breaksLine]

@[simp] theorem breaksLine_append (a b : String) :
    breaksLine (a ++ b) = (breaksLine a || breaksLine b) := by
  simp [breaksLine, List.any_append]

@[simp] theorem breaksLine_ofList (cs : List Char) :
    breaksLine (String.ofList cs) = cs.any isLineBoundary := by
  simp [breaksLine]

theorem breaksLine_intercalate {sep : String} (plain : breaksLine sep = false) :
    ∀ {l : List String}, (∀ s ∈ l, breaksLine s = false) → breaksLine (sep.intercalate l) = false
  | [], _ => rfl
  | [s], each => by
    rw [String.intercalate_singleton]
    exact each s List.mem_cons_self
  | s :: t :: rest, each => by
    rw [String.intercalate_cons_cons, breaksLine_append, breaksLine_append, plain,
      each s List.mem_cons_self,
      breaksLine_intercalate plain fun u mem => each u (List.mem_cons_of_mem s mem)]
    rfl

theorem isLineBoundary_of_ascii {c : Char} (lo : 32 ≤ c.toNat) (hi : c.toNat ≤ 126) :
    isLineBoundary c = false := by
  unfold isLineBoundary
  simp only [Bool.or_eq_false_iff, Bool.and_eq_false_iff, beq_eq_false_iff_ne, ne_eq,
    decide_eq_false_iff_not, Nat.not_le]
  omega

theorem isLineBoundary_of_isDigit {c : Char} (digit : c.isDigit = true) :
    isLineBoundary c = false := by
  simp only [Char.isDigit, Bool.and_eq_true, decide_eq_true_eq] at digit
  have bounds : 48 ≤ c.toNat ∧ c.toNat ≤ 57 := digit
  exact isLineBoundary_of_ascii (by omega) (by omega)

theorem isLineBoundary_of_isPrintable {c : Char} (printable : isPrintable c = true) :
    isLineBoundary c = false := by
  cases boundary : isLineBoundary c with
  | false => rfl
  | true =>
    -- the boundaries are ten code points, control characters and separators, none printable
    have codes : c.toNat = 10 ∨ c.toNat = 11 ∨ c.toNat = 12 ∨ c.toNat = 13 ∨ c.toNat = 28 ∨
        c.toNat = 29 ∨ c.toNat = 30 ∨ c.toNat = 0x85 ∨ c.toNat = 0x2028 ∨ c.toNat = 0x2029 := by
      simp only [isLineBoundary, Bool.or_eq_true, Bool.and_eq_true, decide_eq_true_eq,
        beq_iff_eq] at boundary
      omega
    unfold isPrintable at printable
    rcases codes with code | code | code | code | code | code | code | code | code | code <;>
      rw [code] at printable <;> exact absurd printable (by decide +kernel)

theorem linesFrom_line (current line rest : List Char)
    (solid : ∀ c ∈ line, isLineBoundary c = false) :
    linesFrom current (line ++ '\n' :: rest) = (current.reverse ++ line) :: linesFrom [] rest := by
  induction line generalizing current with
  | nil =>
    rw [List.nil_append, linesFrom_cons current rest (by decide), if_pos (by decide)]
    simp
  | cons c line ih =>
    have kept : isLineBoundary c = false := solid c List.mem_cons_self
    have notReturn : c ≠ '\r' := by
      rintro rfl
      exact absurd kept (by decide)
    rw [List.cons_append, linesFrom_cons current _ notReturn, kept, if_neg Bool.false_ne_true,
      ih (c :: current) fun d mem => solid d (List.mem_cons_of_mem c mem)]
    simp

theorem linesFrom_unbroken {current cs : List Char}
    (solid : ∀ c ∈ current, isLineBoundary c = false) :
    ∀ l ∈ linesFrom current cs, ∀ c ∈ l, isLineBoundary c = false := by
  -- the line being read only ever takes characters that are not boundaries
  fun_induction linesFrom current cs with
  | case1 => nofun
  | case2 current _ =>
    intro l mem
    rw [List.mem_singleton.1 mem]
    exact fun c inLine => solid c (List.mem_reverse.1 inLine)
  | case3 current rest ih | case4 current _ rest _ _ ih =>
    intro l mem
    rcases List.mem_cons.1 mem with rfl | later
    · exact fun c inLine => solid c (List.mem_reverse.1 inLine)
    · exact ih (fun _ none => nomatch none) l later
  | case5 current c rest _ kept ih =>
    refine ih fun d mem => ?_
    rcases List.mem_cons.1 mem with rfl | mem
    · exact Bool.eq_false_iff.2 kept
    · exact solid d mem

theorem lines_unbroken {cs l : List Char} (mem : l ∈ lines cs) : l.any isLineBoundary = false := by
  simpa using @linesFrom_unbroken [] cs (fun _ none => nomatch none) l mem

theorem lines_join (ls : List String) (unbroken : ∀ l ∈ ls, breaksLine l = false) :
    lines (String.join (ls.map (· ++ "\n"))).toList = ls.map String.toList := by
  unfold lines
  induction ls with
  | nil => rfl
  | cons l ls ih =>
    have solid := breaksLine_eq_false.1 (unbroken l List.mem_cons_self)
    rw [List.map_cons, String.join_cons, String.toList_append, String.toList_append,
      show "\n".toList = ['\n'] from rfl, List.append_assoc, List.singleton_append,
      linesFrom_line [] _ _ solid, ih fun k mem => unbroken k (List.mem_cons_of_mem l mem)]
    simp

theorem natRepr_unbroken (n : Nat) : breaksLine n.repr = false := by
  rw [breaksLine_eq_false, Nat.toList_repr]
  intro c mem
  exact isLineBoundary_of_isDigit (Nat.isDigit_of_mem_toDigits (by decide) (by decide) mem)

theorem intRepr_unbroken (i : Int) : breaksLine i.repr = false := by
  rw [Int.repr_eq_if]
  split
  · exact natRepr_unbroken _
  · simp only [breaksLine_append, natRepr_unbroken, Bool.or_false]
    decide

theorem hexDigits_unbroken (width n : Nat) : (hexDigits width n).any isLineBoundary = false := by
  have digit : ∀ k < 16, isLineBoundary (hexDigit k) = false := by decide
  simp only [hexDigits, List.any_map, List.any_eq_false, Function.comp_apply, Bool.not_eq_true]
  intro i _
  exact digit _ (Nat.mod_lt _ (by decide))

theorem jsonQuoteChars_unbroken (c : Char) : (jsonQuoteChars c).any isLineBoundary = false := by
  unfold jsonQuoteChars
  repeat' split
  -- every escape is a backslash followed by ASCII letters or hexadecimal digits
  all_goals simp +decide [List.any_cons, List.any_append, hexDigits_unbroken]
  -- a character kept as it is lies between space and tilde
  rename_i ascii
  simp only [Bool.and_eq_true, decide_eq_true_eq] at ascii
  exact isLineBoundary_of_ascii ascii.1 ascii.2

theorem jsonQuote_unbroken (s : String) : breaksLine (jsonQuote s) = false := by
  simp [jsonQuote, List.any_flatMap, jsonQuoteChars_unbroken]
  decide

theorem jsonQuoteCodes_unbroken (cs : List Nat) : breaksLine (jsonQuoteCodes cs) = false := by
  have code : ∀ n, (jsonQuoteCode n).any isLineBoundary = false := by
    intro n
    unfold jsonQuoteCode
    split
    · simp +decide [hexDigits_unbroken]
    · exact jsonQuoteChars_unbroken _
  simp +decide [jsonQuoteCodes, List.any_flatMap, code]

theorem quoteFor_unbroken (cs : List Char) : isLineBoundary (quoteFor cs) = false := by
  unfold quoteFor
  split <;> decide

theorem quoteChar_unbroken {q : Char} (plainQuote : isLineBoundary q = false) (c : Char) :
    (quoteChar q c).any isLineBoundary = false := by
  unfold quoteChar
  repeat' split
  all_goals simp +decide [List.any_cons, hexDigits_unbroken]
  -- what is left: an escaped quote or backslash, and a printable character kept as it is
  · rename_i escaped
    simp only [Bool.or_eq_true, beq_iff_eq] at escaped
    rcases escaped with rfl | rfl
    · exact plainQuote
    · decide
  · rename_i printable
    exact isLineBoundary_of_isPrintable printable

theorem quote_unbroken (s : String) : breaksLine (quote s) = false := by
  unfold quote
  rw [breaksLine_ofList]
  simp [List.any_flatMap, quoteChar_unbroken (quoteFor_unbroken _), quoteFor_unbroken]

theorem quoteCodes_unbroken (cs : List Nat) : breaksLine (quoteCodes cs) = false := by
  have code : ∀ n, (quoteCode (quoteFor (cs.map charOfCode)) n).any isLineBoundary = false := by
    intro n
    unfold quoteCode
    split
    · simp +decide [hexDigits_unbroken]
    · exact quoteChar_unbroken (quoteFor_unbroken _) _
  unfold quoteCodes
  rw [breaksLine_ofList]
  simp [List.any_flatMap, code, quoteFor_unbroken]

end Keyframes.Text

namespace Keyframes.Decimal
open Keyframes.Text

theorem digitChars_unbroken (n : Nat) : (digitChars n).any isLineBoundary = false := by
  simp only [List.any_eq_false, Bool.not_eq_true]
  intro c mem
  exact isLineBoundary_of_isDigit (Nat.isDigit_of_mem_toDigits (by decide) (by decide) mem)

theorem placePoint_unbroken {ds : List Char} (solid : ds.any isLineBoundary = false)
    (point : Int) : (placePoint ds point).any isLineBoundary = false := by
  unfold placePoint
  split
  · simp +decide [solid]
  · split
    · simp +decide [solid]
    · -- the digits before the point and those after it
      have front : (ds.take point.toNat).any isLineBoundary = false := by
        simp only [List.any_eq_false] at solid ⊢
        exact fun c mem => solid c (List.mem_of_mem_take mem)
      have back : (ds.drop point.toNat).any isLineBoundary = false := by
        simp only [List.any_eq_false] at solid ⊢
        exact fun c mem => solid c (List.mem_of_mem_drop mem)
      simp +decide [front, back]

theorem positional_unbroken (d : Scientific) : breaksLine d.positional = false := by
  unfold Scientific.positional
  rw [breaksLine_ofList]
  exact placePoint_unbroken (digitChars_unbroken _) _

theorem exponentText_unbroken (e : Int) : (exponentText e).any isLineBoundary = false := by
  unfold exponentText
  dsimp only
  split <;> split <;> simp +decide [digitChars_unbroken]

theorem short_unbroken (d : Scientific) : breaksLine d.short = false := by
  unfold Scientific.short
  dsimp only
  have digits := digitChars_unbroken d.trim.digits
  split
  · rw [breaksLine_ofList, List.any_append, exponentText_unbroken, Bool.or_false]
    split <;> simp_all +decide
  · split <;> simp +decide [placePoint_unbroken digits]

theorem floatText_unbroken (x : Float) : breaksLine (floatText x) = false := by
  unfold floatText partsText
  split <;> split <;> simp +decide [short_unbroken]

theorem singleText_unbroken {x : Float} {text : String} (written : singleText x = .ok text) :
    breaksLine text = false := by
  unfold singleText at written
  obtain ⟨v, -, written⟩ := bind_eq_ok.1 written
  dsimp only at written
  split at written
  · cases written
    decide
  · cases written
  · cases written
  · obtain ⟨found, -, written⟩ := bind_eq_ok.1 written
    split at written <;> cases written <;> split <;>
      simp +decide [positional_unbroken]

end Keyframes.Decimal

namespace Keyframes.Json
open Keyframes.Text

mutual

theorem repr_unbroken : (v : Value) → breaksLine v.repr = false
  | .null => by decide
  | .bool b => by cases b <;> decide
  | .int n => by simpa [Value.repr] using intRepr_unbroken n
  | .float x => Decimal.floatText_unbroken x
  | .str s => quote_unbroken s
  | .loose cs => quoteCodes_unbroken cs
  | .arr items => by simp +decide [Value.repr, reprItems_unbroken items]
  | .obj fields => by simp +decide [Value.repr, reprFields_unbroken fields]
  | .looseObj fields => by simp +decide [Value.repr, reprLooseFields_unbroken fields]

theorem reprItems_unbroken : (items : List Value) → breaksLine (reprItems items) = false
  | [] => by decide
  | [v] => by simpa [reprItems] using repr_unbroken v
  | v :: w :: rest => by
    simp +decide [reprItems, repr_unbroken v, reprItems_unbroken (w :: rest)]

theorem reprFields_unbroken : (fields : List (String × Value)) →
    breaksLine (reprFields fields) = false
  | [] => by decide
  | [(k, v)] => by simp +decide [reprFields, quote_unbroken, repr_unbroken v]
  | (k, v) :: f :: rest => by
    simp +decide [reprFields, quote_unbroken, repr_unbroken v, reprFields_unbroken (f :: rest)]

theorem reprLooseFields_unbroken : (fields : List (List Nat × Value)) →
    breaksLine (reprLooseFields fields) = false
  | [] => by decide
  | [(k, v)] => by simp +decide [reprLooseFields, quoteCodes_unbroken, repr_unbroken v]
  | (k, v) :: f :: rest => by
    simp +decide [reprLooseFields, quoteCodes_unbroken, repr_unbroken v,
      reprLooseFields_unbroken (f :: rest)]

end

end Keyframes.Json
