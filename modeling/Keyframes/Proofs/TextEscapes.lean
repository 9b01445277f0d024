import Keyframes.Script
import Keyframes.Json.Read
import Keyframes.Proofs.Except

/-!
# A text payload through both escaping layers

The command that sets a text display writes the text component between single quotes, with
backslashes and single quotes escaped by a backslash (`snbtQuote`); the component is the text
itself when it starts like JSON (a quote, a brace or a bracket), and otherwise the text as a
JSON string in ASCII (`jsonQuote`).

Both layers undo. A single-quoted text is read by taking the character after each backslash as
it is, up to the first quote that no backslash takes (`readSingleQuoted`), and a quoted text
reads back as the text with nothing after it (`readSingleQuoted_snbtQuote`). A JSON string in
ASCII reads back as its text (`read_jsonQuote`). A character is written in one of four ways
(`jsonQuoteChars_cases`): a short escape, itself, one `\u` escape, or a pair of surrogate
escapes beyond the basic plane; each is read back by one step of the string reader
(`readStringBody_jsonQuoteChars`).

Main statement: `text_survives_both_escapes`.
-/

namespace Keyframes.Text

theorem hexDigits_four (n : Nat) :
    hexDigits 4 n = [hexDigit (n / 4096 % 16), hexDigit (n / 256 % 16), hexDigit (n / 16 % 16), hexDigit (n % 16)] := by
  simp [hexDigits, List.range_succ]

end Keyframes.Text

namespace Keyframes.Json
open Keyframes.Text

/-! ## JSON strings in ASCII read back -/

theorem hexValue?_hexDigit : ∀ d : Nat, d < 16 → hexValue? (hexDigit d) = some d := by
  decide

/-- Four hexadecimal digits read back as the unit they were written for. -/
theorem hex4?_hexDigits {n : Nat} (small : n < 0x10000) : hex4? (hexDigits 4 n) = some n := by
  rw [hexDigits_four]
  unfold hex4?
  simp only [hexValue?_hexDigit _ (Nat.mod_lt _ (by omega : 16 > 0))]
  -- the four digits put together again
  have whole : ((n / 4096 % 16 * 16 + n / 256 % 16) * 16 + n / 16 % 16) * 16 + n % 16 = n := by omega
  simp [whole]

section Steps
variable {begin pos : Nat} {acc : List Nat}

theorem readStringBody_plain {c : Char} (notQuote : c ≠ '"') (notBackslash : c ≠ '\\')
    (visible : 0x1f < c.toNat) (rest : List Char) :
    readStringBody begin acc pos (c :: rest) = readStringBody begin (c.toNat :: acc) (pos + 1) rest := by
  rw [readStringBody.eq_7 _ _ _ _ _ notQuote (fun _ _ _ _ _ _ same _ => notBackslash same)
    (fun _ same _ => notBackslash same) (fun _ _ same _ => notBackslash same)
    (fun same _ => notBackslash same), if_neg (by omega)]

theorem readStringBody_escape {e ch : Char} (notU : e ≠ 'u') (simple : simpleEscape? e = some ch)
    (rest : List Char) :
    readStringBody begin acc pos ('\\' :: e :: rest) = readStringBody begin (ch.toNat :: acc) (pos + 2) rest := by
  rw [readStringBody.eq_5 _ _ _ _ _ (fun _ _ _ _ _ _ same _ => notU same) notU, simple]

theorem readStringBody_unit {n : Nat} (small : n < 0x10000) (notHigh : ¬(0xD800 ≤ n ∧ n < 0xDC00))
    (x : Char) (xs : List Char) :
    readStringBody begin acc pos ('\\' :: 'u' :: hexDigits 4 n ++ x :: xs) =
      readStringBody begin (n :: acc) (pos + 6) (x :: xs) := by
  have digits := hex4?_hexDigits small
  rw [hexDigits_four] at digits ⊢
  simp only [List.cons_append, List.nil_append]
  rw [readStringBody.eq_3, digits]
  dsimp only
  rw [if_neg (fun h => notHigh ⟨h.1, h.2.1⟩)]

theorem readStringBody_pair {hi lo : Nat} (high : 0xD800 ≤ hi ∧ hi < 0xDC00) (low : 0xDC00 ≤ lo ∧ lo < 0xE000)
    (y : Char) (ys : List Char) :
    readStringBody begin acc pos ('\\' :: 'u' :: (hexDigits 4 hi ++ '\\' :: 'u' :: (hexDigits 4 lo ++ y :: ys))) =
      readStringBody begin ((0x10000 + (hi - 0xD800) * 0x400 + (lo - 0xDC00)) :: acc) (pos + 12) (y :: ys) := by
  have first := hex4?_hexDigits (by omega : hi < 0x10000)
  have second := hex4?_hexDigits (by omega : lo < 0x10000)
  rw [hexDigits_four] at first second ⊢
  rw [hexDigits_four]
  simp only [List.cons_append, List.nil_append]
  rw [readStringBody.eq_3, first]
  dsimp only
  rw [if_pos ⟨high.1, high.2, rfl⟩]
  simp only [second]
  rw [if_pos low]

/-- How a character is written in a JSON string in ASCII: a backslash and the letter of a short
escape, the character itself, one `\u` escape, or a pair of them for a surrogate pair. -/
theorem jsonQuoteChars_cases (c : Char) :
    (∃ e, jsonQuoteChars c = ['\\', e] ∧ e ≠ 'u' ∧ simpleEscape? e = some c) ∨
    (c ≠ '"' ∧ c ≠ '\\' ∧ 0x1f < c.toNat ∧ jsonQuoteChars c = [c]) ∨
    (c.toNat < 0x10000 ∧ ¬(0xD800 ≤ c.toNat ∧ c.toNat < 0xDC00) ∧
      jsonQuoteChars c = '\\' :: 'u' :: hexDigits 4 c.toNat) ∨
    (0x10000 ≤ c.toNat ∧ c.toNat < 0x110000 ∧
      jsonQuoteChars c = '\\' :: 'u' :: (hexDigits 4 (0xD800 + (c.toNat - 0x10000) / 0x400) ++
        '\\' :: 'u' :: hexDigits 4 (0xDC00 + (c.toNat - 0x10000) % 0x400))) := by
  by_cases short : c = '"' ∨ c = '\\' ∨ c = '\n' ∨ c = '\r' ∨ c = '\t' ∨ c = '\x08' ∨ c = '\x0c'
  · -- the seven characters with a short escape
    left
    rcases short with rfl | rfl | rfl | rfl | rfl | rfl | rfl <;> exact ⟨_, rfl, by decide, rfl⟩
  simp only [not_or] at short
  obtain ⟨quote, backslash, lf, cr, tab, back, feed⟩ := short
  have others : jsonQuoteChars c = if 32 ≤ c.toNat && c.toNat ≤ 126 then [c]
      else if c.toNat < 0x10000 then '\\' :: 'u' :: hexDigits 4 c.toNat
      else '\\' :: 'u' :: (hexDigits 4 (0xD800 + (c.toNat - 0x10000) / 0x400) ++
        '\\' :: 'u' :: hexDigits 4 (0xDC00 + (c.toNat - 0x10000) % 0x400)) := by
    rw [jsonQuoteChars, if_neg (by simpa using quote), if_neg (by simpa using backslash),
      if_neg (by simpa using lf), if_neg (by simpa using cr), if_neg (by simpa using tab),
      if_neg (by simpa using back), if_neg (by simpa using feed)]
    rfl
  have valid := c.valid
  have noSurrogate := isSurrogate_toNat c
  simp only [UInt32.isValidChar, Nat.isValidChar] at valid
  simp only [isSurrogate, Bool.and_eq_false_iff, decide_eq_false_iff_not, Nat.not_le, Nat.not_lt] at noSurrogate
  have code : c.toNat = c.val.toNat := rfl
  by_cases printable : 32 ≤ c.toNat ∧ c.toNat ≤ 126
  · refine .inr (.inl ⟨quote, backslash, by omega, ?_⟩)
    rw [others, if_pos (by simpa using printable)]
  by_cases basic : c.toNat < 0x10000
  · refine .inr (.inr (.inl ⟨basic, by omega, ?_⟩))
    rw [others, if_neg (by simpa using printable), if_pos basic]
  · refine .inr (.inr (.inr ⟨by omega, by omega, ?_⟩))
    rw [others, if_neg (by simpa using printable), if_neg basic]

/-- What `jsonQuoteChars` writes for a character reads back as that character, whatever
follows it. -/
theorem readStringBody_jsonQuoteChars (c x : Char) (xs : List Char) :
    readStringBody begin acc pos (jsonQuoteChars c ++ x :: xs) =
      readStringBody begin (c.toNat :: acc) (pos + (jsonQuoteChars c).length) (x :: xs) := by
  rcases jsonQuoteChars_cases c with ⟨e, written, notU, simple⟩ | ⟨quote, backslash, visible, written⟩ |
    ⟨basic, notHigh, written⟩ | ⟨beyond, valid, written⟩ <;> rw [written]
  · exact readStringBody_escape notU simple _
  · exact readStringBody_plain quote backslash visible _
  · rw [readStringBody_unit basic notHigh]
    simp [hexDigits]
  · -- a surrogate pair, whose two units put together give the character again
    simp only [List.cons_append, List.append_assoc]
    rw [readStringBody_pair (by omega) (by omega) x xs]
    have joined : 0x10000 + (0xD800 + (c.toNat - 0x10000) / 0x400 - 0xD800) * 0x400 +
        (0xDC00 + (c.toNat - 0x10000) % 0x400 - 0xDC00) = c.toNat := by omega
    rw [joined]
    simp [hexDigits]

/-- The body of a JSON string in ASCII reads back as its characters, up to the closing quote. -/
theorem readStringBody_flatMap (rest : List Char) :
    ∀ (cs : List Char) (acc : List Nat) (pos : Nat),
      readStringBody begin acc pos (cs.flatMap jsonQuoteChars ++ '"' :: rest) =
        .ok ((cs.map Char.toNat).reverse ++ acc, rest, pos + (cs.flatMap jsonQuoteChars).length + 1)
  | [], acc, pos => by simp [readStringBody.eq_2]
  | c :: cs, acc, pos => by
    obtain ⟨x, xs, after⟩ : ∃ x xs, cs.flatMap jsonQuoteChars ++ '"' :: rest = x :: xs := by
      cases found : cs.flatMap jsonQuoteChars ++ '"' :: rest with
      | nil => simp at found
      | cons x xs => exact ⟨x, xs, rfl⟩
    rw [List.flatMap_cons, List.append_assoc, after, readStringBody_jsonQuoteChars, ← after,
      readStringBody_flatMap rest cs]
    simp only [List.map_cons, List.reverse_cons, List.append_assoc, List.singleton_append,
      List.length_append, Nat.add_assoc]

end Steps

theorem readValue_quote (fuel depth pos : Nat) (tail : List Char) :
    readValue (fuel + 1) depth ⟨'"' :: tail, pos⟩ =
      (readString ⟨'"' :: tail, pos⟩ >>= fun r => pure (Value.ofCodes r.1, r.2)) :=
  rfl

theorem readString_jsonQuote (cs rest : List Char) (pos : Nat) :
    readString ⟨'"' :: (cs.flatMap jsonQuoteChars ++ '"' :: rest), pos⟩ =
      .ok (cs.map Char.toNat, ⟨rest, pos + (cs.flatMap jsonQuoteChars).length + 2⟩) := by
  unfold readString
  simp only [List.drop_succ_cons, List.drop_zero, readStringBody_flatMap, List.append_nil, ok_bind,
    List.reverse_reverse]
  have moved : pos + 1 + (cs.flatMap jsonQuoteChars).length + 1 = pos + (cs.flatMap jsonQuoteChars).length + 2 := by
    omega
  rw [moved]
  rfl

theorem Value.ofCodes_toNat (s : String) : Value.ofCodes (s.toList.map Char.toNat) = .str s := by
  have clean : (s.toList.map Char.toNat).any isSurrogate = false := by simp [isSurrogate_toNat]
  rw [Value.ofCodes, if_neg (by simp [clean]), ← codes, ofCodes_codes]

/-- A text written as a JSON string in ASCII reads back as that text, at every depth limit. -/
theorem read_jsonQuote (limit : Nat) (s : String) : read limit (jsonQuote s) = .ok (.str s) := by
  have doc : (jsonQuote s).toList = '"' :: (s.toList.flatMap jsonQuoteChars ++ ['"']) := by
    simp [jsonQuote]
  unfold read
  rw [doc]
  simp only [Cursor.skip, List.takeWhile_cons_of_neg (by decide : ¬isJsonBlank '"' = true)]
  split
  · rename_i tail same
    cases same
  · simp only [List.length_nil, List.drop_zero, Nat.zero_add]
    rw [readValue_quote, readString_jsonQuote]
    simp only [ok_bind, pure_bind]
    -- the value is the text, and nothing follows it
    simp [Value.ofCodes_toNat]

end Keyframes.Json

namespace Keyframes
open Keyframes.Json

/-! ## Single-quoted texts -/

/-- Reads the body of a single-quoted text, from the character after its opening quote: a
backslash takes the next character as it is, and a quote that no backslash takes closes the
text. Gives the text and what follows the closing quote. -/
def readQuotedBody : List Char → Option (List Char × List Char)
  | [] => none
  | '\\' :: c :: rest => (readQuotedBody rest).map (Prod.map (c :: ·) id)
  | '\'' :: rest => some ([], rest)
  | c :: rest => (readQuotedBody rest).map (Prod.map (c :: ·) id)

/-- Reads a single-quoted text: its opening quote, then its body. -/
def readSingleQuoted : List Char → Option (List Char × List Char)
  | '\'' :: rest => readQuotedBody rest
  | _ => none

theorem readQuotedBody_snbtEscape (rest : List Char) :
    ∀ cs : List Char, readQuotedBody (snbtEscape cs ++ '\'' :: rest) = some (cs, rest)
  | [] => rfl
  | c :: cs => by
    have later := readQuotedBody_snbtEscape rest cs
    unfold snbtEscape
    by_cases backslash : c = '\\'
    · subst backslash
      simp [readQuotedBody, later]
    · by_cases quote : c = '\''
      · subst quote
        simp [readQuotedBody, later]
      · rw [if_neg backslash, if_neg quote, List.cons_append, readQuotedBody.eq_4 _ _
          (fun _ _ same _ => backslash same) quote, later]
        rfl

/-- A quoted text reads back as the text, with nothing after it. -/
theorem readSingleQuoted_snbtQuote (s : String) : readSingleQuoted (snbtQuote s).toList = some (s.toList, []) := by
  simp [snbtQuote, readSingleQuoted, readQuotedBody_snbtEscape]

/-! ## The command of a text payload -/

theorem textComponent_str (t : String) :
    textComponent (.str t) =
      .ok (if t.toList.head? = some '"' ∨ t.toList.head? = some '{' ∨ t.toList.head? = some '[' then t
        else Text.jsonQuote t) := by
  simp only [textComponent]
  split
  · rename_i c rest found
    simp only [found, List.head?_cons, Option.some.injEq]
    split_ifs <;> rfl
  · rename_i found
    simp [found]

/-- A text payload survives both escaping layers: the command ends with a single-quoted text
that reads back, unescaped, as the text itself when it starts like JSON (a quote, a brace or a
bracket), and otherwise as its JSON string, which reads back as the text. -/
theorem text_survives_both_escapes (timeline target : String) (offset : Nat)
    (payload : List (String × Value)) (t : String) (given : getField? payload "text" = some (.str t)) :
    ∃ Q : String,
      renderAction timeline offset (.setState target .text payload) =
        .ok ("execute as @e[tag=" ++ target ++ "] " ++ timerGuard timeline offset ++ " run " ++
          ("data merge entity @s \x7btext:" ++ Q ++ "\x7d")) ∧
      readSingleQuoted Q.toList =
        some ((if t.toList.head? = some '"' ∨ t.toList.head? = some '{' ∨ t.toList.head? = some '[' then t
          else Text.jsonQuote t).toList, []) ∧
      ∀ limit, read limit (Text.jsonQuote t) = .ok (.str t) := by
  refine ⟨snbtQuote _, ?_, readSingleQuoted_snbtQuote _, fun limit => read_jsonQuote limit t⟩
  simp only [renderAction, stateCommand, payloadField, given, textComponent_str, ok_bind, pure_bind]
  rfl

/-- A text that holds a single quote and a double quote, and so needs both layers, reads back. -/
theorem text_survives_both_escapes_sign :
    getField? [("text", Value.str "it's \"on\"")] "text" = some (.str "it's \"on\"") ∧
      ∃ Q : String,
        renderAction "door" 3 (.setState "sign" .text [("text", .str "it's \"on\"")]) =
          .ok ("execute as @e[tag=" ++ "sign" ++ "] " ++ timerGuard "door" 3 ++ " run " ++
            ("data merge entity @s \x7btext:" ++ Q ++ "\x7d")) ∧
        readSingleQuoted Q.toList =
          some ((if "it's \"on\"".toList.head? = some '"' ∨ "it's \"on\"".toList.head? = some '{' ∨
            "it's \"on\"".toList.head? = some '[' then "it's \"on\"" else Text.jsonQuote "it's \"on\"").toList, []) ∧
        ∀ limit, read limit (Text.jsonQuote "it's \"on\"") = .ok (.str "it's \"on\"") :=
  ⟨rfl, text_survives_both_escapes "door" "sign" 3 _ _ rfl⟩

end Keyframes
