import Keyframes.Decimal.Basic
import Keyframes.Binary.Double
import Keyframes.Text.Blank
import Keyframes.Text.Digit

/-!
# Reading numbers

`Scientific.toFloat` gives the double nearest to a decimal, a tie to the even significand, as
reading any decimal text does. Decimals far outside the double range are settled by their
length alone: one of more than 400 places above the point is infinite, one whose digits all
lie more than 400 places below it is zero.

`readFloat?` reads the text of a number. Blanks around it are skipped (those of
`Text.isNumberBlank`: the information separators are not); decimal digits of any
script count as digits; the text is an optional sign and then either `inf`, `infinity` or `nan`
in any case, or digits with an optional point and fraction and an optional exponent. An
underscore may stand between two digits.

`readInt?` reads the text of a whole number the same way: blanks around it, an optional sign,
and digits of any script with single underscores between them. Conversion takes at most
`maxIntegerDigits` digits: a text whose leading run of digits is longer is refused with a fault
of its own (`readIntText`), once the run is known to be well formed.

Main statements: `toFloat_zero` (no digits read as zero) and `readDigits_plain` (digits
without underscores read as their value).
-/

namespace Keyframes.Decimal
open Keyframes.Binary Keyframes.Text

-- `^` on naturals and integers is core's power here, also where Mathlib is loaded.
attribute [local instance] corePow

/-- The double nearest to a signed decimal. -/
def Scientific.toFloat (negative : Bool) (d : Scientific) : Float :=
  if d.digits = 0 then floatOfRounded negative .zero
  else
    let top := (length d.digits : Int) + d.exponent
    if 400 < top then floatOfRounded negative .overflow
    else if top < -400 then floatOfRounded negative .zero
    else
      let p := scale10 d.digits 1 d.exponent
      floatOfRatio negative p.1 p.2

theorem toFloat_zero (negative : Bool) (e : Int) :
    Scientific.toFloat negative ⟨0, e⟩ = floatOfRounded negative .zero := by
  simp [Scientific.toFloat]

/-- The characters of a number text with every decimal digit made an ASCII digit. -/
def asciiDigits (cs : List Char) : List Char :=
  cs.map fun c => match digitValue? c with
    | some v => Char.ofNat (48 + v)
    | none => c

/-- Reads a run of ASCII digits in which single underscores may stand between two digits.
Gives the value, the number of digits, and the rest of the text; `none` if there is no digit
or an underscore stands elsewhere. -/
def readDigits : List Char → Option (Nat × Nat × List Char)
  | [] => none
  | c :: rest =>
    if c.isDigit then some (readMore (c.toNat - 48) 1 rest) else none
where
  readMore (acc count : Nat) : List Char → Nat × Nat × List Char
    | [] => (acc, count, [])
    | '_' :: d :: rest =>
      if d.isDigit then readMore (10 * acc + (d.toNat - 48)) (count + 1) rest
      else (acc, count, '_' :: d :: rest)
    | d :: rest =>
      if d.isDigit then readMore (10 * acc + (d.toNat - 48)) (count + 1) rest
      else (acc, count, d :: rest)

theorem readDigits_plain (c : Char) (h : c.isDigit = true) :
    readDigits [c] = some (c.toNat - 48, 1, []) := by
  simp [readDigits, h, readDigits.readMore]

/-- Reads an optional sign: whether it is a minus, and the rest. -/
def readSign : List Char → Bool × List Char
  | '-' :: rest => (true, rest)
  | '+' :: rest => (false, rest)
  | cs => (false, cs)

/-- Reads an exponent part `e` or `E`, an optional sign and digits; an empty text is the
exponent zero. -/
def readExponent : List Char → Option Int
  | [] => some 0
  | c :: rest =>
    if c == 'e' || c == 'E' then
      let (neg, rest) := readSign rest
      match readDigits rest with
      | some (v, _, []) => some (if neg then -(v : Int) else v)
      | _ => none
    else none

/-- Reads an unsigned decimal number: digits, an optional point and fraction, an optional
exponent; or a point followed by digits. -/
def readUnsigned (cs : List Char) : Option Scientific :=
  match cs with
  | '.' :: rest =>
    match readDigits rest with
    | some (f, count, after) => (readExponent after).map fun e => ⟨f, e - count⟩
    | none => none
  | _ =>
    match readDigits cs with
    | none => none
    | some (w, _, '.' :: rest) =>
      match readDigits rest with
      | some (f, count, after) =>
        (readExponent after).map fun e => ⟨w * 10 ^ count + f, e - count⟩
      | none => (readExponent rest).map fun e => ⟨w, e⟩
    | some (w, _, after) => (readExponent after).map fun e => ⟨w, e⟩

/-- Whether a text spells a word, in any case. -/
def spells (cs : List Char) (word : String) : Bool :=
  cs.map Char.toLower == word.toList

/-- Reads the text of a number, or `none` when it is not one. -/
def readFloat? (s : String) : Option Float :=
  let cs := trimNumber (asciiDigits s.toList)
  let (negative, body) := readSign cs
  if spells body "inf" || spells body "infinity" then
    some (floatOfRounded negative .overflow)
  else if spells body "nan" then
    some (Float.ofBits 0x7FF8000000000000)
  else (readUnsigned body).map (Scientific.toFloat negative)

/-- Reads the text of a number, failing with the text when it is not one. -/
def readFloat (s : String) : Except Fault Float :=
  match readFloat? s with
  | some x => .ok x
  | none => .error (.notANumber (Text.codes s))

/-- The most digits a decimal text may have to be converted to an integer: the interpreter's
default limit on integer string conversion. -/
def maxIntegerDigits : Nat := 4300

/-- The message of converting a decimal text of `digits` digits, more than `maxIntegerDigits`. -/
def tooManyDigitsMessage (digits : Nat) : String :=
  "Exceeds the limit (" ++ toString maxIntegerDigits ++
    " digits) for integer string conversion: value has " ++ toString digits ++
    " digits; use sys.set_int_max_str_digits() to increase the limit"

/-- The value of a whole number without its limit on digits: blanks around it (those of
`Text.isNumberBlank`), an optional sign, and decimal digits of any script, single underscores
allowed between digits. -/
def wholeNumber? (s : String) : Option Int :=
  let cs := trimNumber s.toList
  let (negative, body) := match cs with
    | '-' :: r => (true, r)
    | '+' :: r => (false, r)
    | r => (false, r)
  let groups := body.splitOn '_'
  if groups.any (·.isEmpty) then none
  else
    match groups.flatten.mapM digitValue? with
    | some ds =>
      let n : Nat := ds.foldl (fun acc d => 10 * acc + d) 0
      some (if negative then -(n : Int) else n)
    | none => none

/-- What converting a text to a whole number gives. -/
inductive IntReading where
  | value (n : Int)
  | invalid
  /-- A well-formed leading run of more than `maxIntegerDigits` digits. -/
  | tooLong (digits : Nat)
deriving Repr, BEq, DecidableEq

/-- Converts a text to a whole number. The leading run of digits and underscores after the
sign is checked first: an empty run, an underscore at either end of it or two in a row make the
text no number, and more than `maxIntegerDigits` digits in it are too many, whatever follows. -/
def readIntText (s : String) : IntReading :=
  let body := match trimNumber s.toList with
    | '-' :: r | '+' :: r => r
    | r => r
  let run := body.takeWhile fun c => isDigit c || c == '_'
  let digits := (run.filter isDigit).length
  if (run.splitOn '_').any (·.isEmpty) then .invalid
  else if maxIntegerDigits < digits then .tooLong digits
  else
    match wholeNumber? s with
    | some n => .value n
    | none => .invalid

/-- Reads a whole number, as `readIntText` converts it, or `none` when it is no number or has
too many digits. -/
def readInt? (s : String) : Option Int :=
  match readIntText s with
  | .value n => some n
  | _ => none

end Keyframes.Decimal
