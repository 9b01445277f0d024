import Keyframes.Text.Printable
import Keyframes.Text.Surrogate
import Keyframes.Power

/-!
# Quoted text

Two ways to write a text between quotes.

* `quote`: the form messages use to show a name or a value. The quote is a single quote unless
  the text holds a single quote and no double quote. Backslash and the chosen quote are escaped
  with a backslash; tab, line feed and carriage return are written `\t`, `\n`, `\r`; other
  characters that are not printable are written `\xhh`, `\uhhhh` or `\Uhhhhhhhh`, by size.
* `jsonQuote`: a JSON string in ASCII. Quote and backslash are escaped, the five usual control
  characters have their short escapes, every other character outside space to tilde is
  written `\uhhhh`, and a character beyond the basic plane as a pair of surrogate escapes.

Both also write texts given by code points (`quoteCodes`, `jsonQuoteCodes`), where a lone
surrogate, which is not printable, is written as its `\uhhhh`.

Main statements: `jsonQuoteChars_ascii` (a printable ASCII character other than quote and
backslash stands for itself) and `quote_plain` (a text of plain characters is only enclosed).
-/

namespace Keyframes.Text

-- `^` on naturals and integers is core's power here, also where Mathlib is loaded.
attribute [local instance] corePow

/-- The lower-case hexadecimal digit of a number below 16. -/
def hexDigit (n : Nat) : Char :=
  if n < 10 then Char.ofNat (48 + n) else Char.ofNat (87 + n)

/-- The last `width` hexadecimal digits of `n`, most significant first. -/
def hexDigits (width n : Nat) : List Char :=
  (List.range width).reverse.map fun i => hexDigit (n / 16 ^ i % 16)

/-- The quote character used to show a text. -/
def quoteFor (cs : List Char) : Char :=
  if cs.contains '\'' && !cs.contains '"' then '"' else '\''

/-- How one character is written inside a shown text whose quote is `q`. -/
def quoteChar (q c : Char) : List Char :=
  if c == q || c == '\\' then ['\\', c]
  else if c == '\t' then ['\\', 't']
  else if c == '\n' then ['\\', 'n']
  else if c == '\r' then ['\\', 'r']
  else if isPrintable c then [c]
  else if c.toNat < 0x100 then '\\' :: 'x' :: hexDigits 2 c.toNat
  else if c.toNat < 0x10000 then '\\' :: 'u' :: hexDigits 4 c.toNat
  else '\\' :: 'U' :: hexDigits 8 c.toNat

/-- A text as messages show it: enclosed in quotes, with escapes. -/
def quote (s : String) : String :=
  let q := quoteFor s.toList
  String.ofList (q :: s.toList.flatMap (quoteChar q) ++ [q])

/-- How one code point is written inside a shown text whose quote is `q`. -/
def quoteCode (q : Char) (n : Nat) : List Char :=
  if isSurrogate n then '\\' :: 'u' :: hexDigits 4 n else quoteChar q (Char.ofNat n)

/-- A text given by code points as messages show it. -/
def quoteCodes (cs : List Nat) : String :=
  let q := quoteFor (cs.map charOfCode)
  String.ofList (q :: cs.flatMap (quoteCode q) ++ [q])

/-- How one character is written inside a JSON string in ASCII. -/
def jsonQuoteChars (c : Char) : List Char :=
  if c == '"' then ['\\', '"']
  else if c == '\\' then ['\\', '\\']
  else if c == '\n' then ['\\', 'n']
  else if c == '\r' then ['\\', 'r']
  else if c == '\t' then ['\\', 't']
  else if c == '\x08' then ['\\', 'b']
  else if c == '\x0c' then ['\\', 'f']
  else if 32 ≤ c.toNat && c.toNat ≤ 126 then [c]
  else if c.toNat < 0x10000 then '\\' :: 'u' :: hexDigits 4 c.toNat
  else
    let v := c.toNat - 0x10000
    '\\' :: 'u' :: hexDigits 4 (0xD800 + v / 0x400) ++ '\\' :: 'u' :: hexDigits 4 (0xDC00 + v % 0x400)

/-- A text as a JSON string in ASCII. -/
def jsonQuote (s : String) : String :=
  String.ofList ('"' :: s.toList.flatMap jsonQuoteChars ++ ['"'])

/-- How one code point is written inside a JSON string in ASCII. -/
def jsonQuoteCode (n : Nat) : List Char :=
  if isSurrogate n then '\\' :: 'u' :: hexDigits 4 n else jsonQuoteChars (Char.ofNat n)

/-- A text given by code points as a JSON string in ASCII. -/
def jsonQuoteCodes (cs : List Nat) : String :=
  String.ofList ('"' :: cs.flatMap jsonQuoteCode ++ ['"'])

theorem jsonQuoteChars_ascii {c : Char} (lo : 32 ≤ c.toNat) (hi : c.toNat ≤ 126)
    (notQuote : c ≠ '"') (notBackslash : c ≠ '\\') : jsonQuoteChars c = [c] := by
  have h1 : c ≠ '\n' := fun e => by subst e; simp at lo
  have h2 : c ≠ '\r' := fun e => by subst e; simp at lo
  have h3 : c ≠ '\t' := fun e => by subst e; simp at lo
  have h4 : c ≠ '\x08' := fun e => by subst e; simp at lo
  have h5 : c ≠ '\x0c' := fun e => by subst e; simp at lo
  simp [jsonQuoteChars, notQuote, notBackslash, h1, h2, h3, h4, h5, lo, hi]

/-- A character that is printable, is no quote and no backslash stands for itself. -/
def isPlain (c : Char) : Bool :=
  isPrintable c && c != '\'' && c != '"' && c != '\\'

theorem quoteChar_plain {q c : Char} (hq : q = '\'' ∨ q = '"') (h : isPlain c = true) :
    quoteChar q c = [c] := by
  simp only [isPlain, Bool.and_eq_true, bne_iff_ne, ne_eq] at h
  obtain ⟨⟨⟨hp, h1⟩, h2⟩, h3⟩ := h
  have hcq : c ≠ q := by rcases hq with rfl | rfl <;> assumption
  have ht : c ≠ '\t' := fun e => by subst e; simp [isPrintable] at hp
  have hn : c ≠ '\n' := fun e => by subst e; simp [isPrintable] at hp
  have hr : c ≠ '\r' := fun e => by subst e; simp [isPrintable] at hp
  simp [quoteChar, hcq, h3, ht, hn, hr, hp]

theorem quote_plain (s : String) (h : ∀ c ∈ s.toList, isPlain c = true) :
    quote s = String.ofList ('\'' :: s.toList ++ ['\'']) := by
  have hq : quoteFor s.toList = '\'' := by
    have hnot : '\'' ∉ s.toList := fun hm => by
      have := h _ hm
      simp [isPlain] at this
    simp [quoteFor, hnot]
  have hmap : s.toList.flatMap (quoteChar '\'') = s.toList := by
    have : ∀ cs : List Char, (∀ c ∈ cs, isPlain c = true) → cs.flatMap (quoteChar '\'') = cs := by
      intro cs hcs
      induction cs with
      | nil => rfl
      | cons c rest ih =>
        rw [List.flatMap_cons, quoteChar_plain (Or.inl rfl) (hcs c (by simp)),
          ih (fun d hd => hcs d (by simp [hd]))]
        rfl
    exact this s.toList h
  simp [quote, hq, hmap]

end Keyframes.Text
