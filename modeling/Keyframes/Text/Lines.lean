import Keyframes.Text.Blank

/-!
# Lines of a text

A text is cut into lines at every line boundary: line feed, carriage return, the pair carriage
return and line feed (one boundary), vertical tab, form feed, the file, group and record
separators `\x1c`–`\x1e`, next line, and the line and paragraph separators. A boundary at the
very end opens no further line, so the empty text has no lines.

Main statement: `lines_noBoundary` (a text without boundaries is one line).
-/

namespace Keyframes.Text

/-- The characters that end a line. -/
def isLineBoundary (c : Char) : Bool :=
  let n := c.toNat
  (10 ≤ n && n ≤ 13) || (28 ≤ n && n ≤ 30) || n == 0x85 || n == 0x2028 || n == 0x2029

/-- Cuts the rest of a text into lines; `current` holds the line read so far, reversed. -/
def linesFrom (current : List Char) : List Char → List (List Char)
  | [] => if current.isEmpty then [] else [current.reverse]
  | '\r' :: '\n' :: rest => current.reverse :: linesFrom [] rest
  | c :: rest =>
    if isLineBoundary c then current.reverse :: linesFrom [] rest
    else linesFrom (c :: current) rest

/-- The lines of a text, without their boundaries. -/
def lines (cs : List Char) : List (List Char) :=
  linesFrom [] cs

theorem linesFrom_cons (current rest : List Char) {c : Char} (hc : c ≠ '\r') :
    linesFrom current (c :: rest) =
      if isLineBoundary c then current.reverse :: linesFrom [] rest
      else linesFrom (c :: current) rest := by
  cases rest with
  | nil => simp [linesFrom]
  | cons d rest => simp [linesFrom, hc]

theorem linesFrom_noBoundary (current cs : List Char)
    (h : ∀ c ∈ cs, isLineBoundary c = false) :
    linesFrom current cs = if current.isEmpty && cs.isEmpty then [] else [current.reverse ++ cs] := by
  induction cs generalizing current with
  | nil => cases current <;> simp [linesFrom]
  | cons c rest ih =>
    have hc : isLineBoundary c = false := h c (by simp)
    have hr : ∀ d ∈ rest, isLineBoundary d = false := fun d hd => h d (by simp [hd])
    have hnot : c ≠ '\r' := by
      intro e
      subst e
      exact absurd hc (by decide)
    rw [linesFrom_cons current rest hnot, hc, if_neg (by simp), ih (c :: current) hr]
    simp

theorem lines_noBoundary (cs : List Char) (nonempty : cs ≠ [])
    (h : ∀ c ∈ cs, isLineBoundary c = false) : lines cs = [cs] := by
  rw [lines, linesFrom_noBoundary [] cs h]
  cases cs with
  | nil => exact absurd rfl nonempty
  | cons c rest => simp

end Keyframes.Text
