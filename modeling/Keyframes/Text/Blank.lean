/-!
# Blank characters

A character is blank when Unicode gives it the white-space property or it is one of the four
information separators `\x1c`–`\x1f`. These are the 29 code points that separate tokens of the
line language and that trimming skips.

Number reading skips fewer: it keeps ASCII control characters as they are, so of those only
the six C blanks (tab to carriage return, and space) are skipped, and the information
separators make a text no number (`isNumberBlank`).

Main statements: `isBlank_of_isWhitespace` (every character that core calls white space is
blank), `trim_eq` (trimming drops blanks at both ends and nothing else) and
`isBlank_of_isNumberBlank` (number reading skips only blanks).
-/

namespace Keyframes.Text

/-- The 29 blank code points: tab to carriage return, the information separators, space,
next line, no-break space, ogham space, the en quad to hair space block, the line and paragraph
separators, the narrow no-break space, the medium mathematical space and the ideographic space. -/
def isBlank (c : Char) : Bool :=
  let n := c.toNat
  (9 ≤ n && n ≤ 13) || (28 ≤ n && n ≤ 32) || n == 0x85 || n == 0xA0 || n == 0x1680 ||
    (0x2000 ≤ n && n ≤ 0x200A) || n == 0x2028 || n == 0x2029 || n == 0x202F ||
    n == 0x205F || n == 0x3000

theorem isBlank_of_isWhitespace {c : Char} (h : c.isWhitespace = true) : isBlank c = true := by
  simp only [Char.isWhitespace, Bool.or_eq_true, decide_eq_true_eq] at h
  rcases h with ((h | h) | h) | h <;> simp [isBlank, h]

/-- Drops the blanks at the front. -/
def dropBlanks (cs : List Char) : List Char :=
  cs.dropWhile isBlank

/-- Drops the blanks at both ends. -/
def trim (cs : List Char) : List Char :=
  (dropBlanks (dropBlanks cs).reverse).reverse

/-- Drops the blanks at both ends of a string. -/
def trimString (s : String) : String :=
  String.ofList (trim s.toList)

/-- The number of blanks in front. -/
def leadingBlanks (cs : List Char) : Nat :=
  (cs.takeWhile isBlank).length

theorem trim_eq (cs : List Char) :
    trim cs = ((cs.dropWhile isBlank).reverse.dropWhile isBlank).reverse := rfl

/-- The blanks skipped around the text of a number: every blank but the information
separators `\x1c`–`\x1f`. -/
def isNumberBlank (c : Char) : Bool :=
  isBlank c && !(28 ≤ c.toNat && c.toNat ≤ 31)

theorem isBlank_of_isNumberBlank {c : Char} (h : isNumberBlank c = true) : isBlank c = true := by
  simp only [isNumberBlank, Bool.and_eq_true] at h
  exact h.1

/-- Drops the blanks that number reading skips at both ends. -/
def trimNumber (cs : List Char) : List Char :=
  ((cs.dropWhile isNumberBlank).reverse.dropWhile isNumberBlank).reverse

end Keyframes.Text
