/-!
# Lower case for matching words

Keywords, entity kinds and axis names are matched after lowering. Every word they are matched
against is ASCII, and only two non-ASCII characters have a lower-case form that reaches ASCII:
the Kelvin sign U+212A, which lowers to `k`, and the capital I with dot U+0130, which lowers to
`i` followed by a combining dot and so still never matches. Lowering for matching therefore maps
A–Z and the Kelvin sign and keeps every other character.

Main statement: `lowerForMatch_ascii` (on ASCII it is the usual lower case).
-/

namespace Keyframes.Text

/-- The lower-case form of a character, as far as matching against ASCII words can tell. -/
def lowerForMatch (c : Char) : Char :=
  if c.toNat == 0x212A then 'k' else c.toLower

/-- Lowers a word for matching. -/
def lowerWord (s : String) : String :=
  String.ofList (s.toList.map lowerForMatch)

theorem lowerForMatch_ascii {c : Char} (h : c.toNat < 128) : lowerForMatch c = c.toLower := by
  have : (c.toNat == 0x212A) = false := by
    rw [beq_eq_false_iff_ne]
    omega
  simp [lowerForMatch, this]

end Keyframes.Text
