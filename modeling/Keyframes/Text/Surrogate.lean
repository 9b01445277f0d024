/-!
# Lone surrogates

A JSON string may hold a `\u` escape of a surrogate code unit that no partner completes. No
character stands for such a unit, so a text that may hold one is kept as the list of its code
points: those of its characters, and the lone units among them. Every string is such a text
(`codes`), and a text that holds no lone unit is a string again (`ofCodes`, which puts the
replacement character where a lone unit stands).

Encoding a text as UTF-8 fails at its first lone unit (`unencodable?`). A file name is encoded
more leniently: the units `0xDC80` to `0xDCFF` stand for the single bytes `0x80` to `0xFF` of
a name that is no UTF-8 (`unencodableName?`).

Main statements: `ofCodes_codes` (the code points of a string give it back) and
`unencodable_codes` (a string always encodes).
-/

namespace Keyframes.Text

/-- Whether a code point is a surrogate code unit. -/
def isSurrogate (n : Nat) : Bool :=
  0xD800 ≤ n && n < 0xE000

/-- The code points of a string. -/
def codes (s : String) : List Nat :=
  s.toList.map Char.toNat

/-- The character of a code point, the replacement character for a surrogate. -/
def charOfCode (n : Nat) : Char :=
  if isSurrogate n then '�' else Char.ofNat n

/-- The string of a list of code points, each lone surrogate shown as the replacement
character. -/
def ofCodes (cs : List Nat) : String :=
  String.ofList (cs.map charOfCode)

theorem toNat_ofNat_valid {n : Nat} (h : n.isValidChar) : (Char.ofNat n).toNat = n := by
  unfold Char.ofNat
  rw [dif_pos h]
  unfold Char.ofNatAux Char.toNat
  simp

theorem isSurrogate_toNat (c : Char) : isSurrogate c.toNat = false := by
  have h := c.valid
  simp only [UInt32.isValidChar, Nat.isValidChar] at h
  have e : c.toNat = c.val.toNat := rfl
  simp only [isSurrogate, Bool.and_eq_false_iff, decide_eq_false_iff_not, Nat.not_le,
    Nat.not_lt]
  omega

theorem charOfCode_toNat (c : Char) : charOfCode c.toNat = c := by
  simp [charOfCode, isSurrogate_toNat]

theorem ofCodes_codes (s : String) : ofCodes (codes s) = s := by
  simp [ofCodes, codes, Function.comp_def, charOfCode_toNat]

/-- Where encoding a text as UTF-8 fails, from position `pos` on, when the surrogate units that
`escapable` accepts are written as bytes: the first unit that is not accepted, its position,
and the number of surrogate units from there to the end of their run. -/
def unencodableFrom (escapable : Nat → Bool) (pos : Nat) : List Nat → Option (Nat × Nat × Nat)
  | [] => none
  | n :: rest =>
    if isSurrogate n && !escapable n then some (n, pos, 1 + (rest.takeWhile isSurrogate).length)
    else unencodableFrom escapable (pos + 1) rest

/-- Where encoding a text as UTF-8 fails: its first lone unit, the position of that unit and
the length of the run of units there; `none` when the text encodes. -/
def unencodable? (cs : List Nat) : Option (Nat × Nat × Nat) :=
  unencodableFrom (fun _ => false) 0 cs

/-- Where encoding a file name fails: as `unencodable?`, but the units `0xDC80` to `0xDCFF`
encode as single bytes. -/
def unencodableName? (cs : List Nat) : Option (Nat × Nat × Nat) :=
  unencodableFrom (fun n => 0xDC80 ≤ n && n ≤ 0xDCFF) 0 cs

theorem unencodableFrom_codes (escapable : Nat → Bool) (cs : List Char) :
    ∀ pos, unencodableFrom escapable pos (cs.map Char.toNat) = none := by
  induction cs with
  | nil => intro _; rfl
  | cons c rest ih =>
    intro pos
    simp [unencodableFrom, isSurrogate_toNat, ih]

theorem unencodable_codes (s : String) : unencodable? (codes s) = none :=
  unencodableFrom_codes _ s.toList 0

end Keyframes.Text
