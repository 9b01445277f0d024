import Keyframes.Json.Value
import Keyframes.Decimal.Read
import Keyframes.Text.Surrogate

/-!
# Reading JSON

A strict JSON reader. Blanks between tokens are space, tab, line feed and carriage return. A
number is an optional minus, then `0` or digits not starting with `0`, an optional fraction and
an optional exponent; with a fraction or an exponent it is a double, else an integer. The words
`NaN`, `Infinity` and `-Infinity` are doubles too. Inside a string, control characters below
space are refused, and `\u` escapes of a surrogate pair make one character. A string value
that keeps a lone surrogate is `loose`, and an object with such a key `looseObj`.

A failure carries a message and the position (in characters) where it was found:

* `Expecting value` where no value starts;
* `Expecting property name enclosed in double quotes`, `Expecting ':' delimiter`,
  `Expecting ',' delimiter` inside objects and arrays;
* `Unterminated string starting at` (at the opening quote), `Invalid control character at`,
  `Invalid \escape` (at the backslash), `Invalid \uXXXX escape`;
* `Extra data` after a complete value, and `Unexpected UTF-8 BOM (decode using utf-8-sig)` for a
  text that starts with a byte order mark.

Arrays and objects nest at most as deep as the reader is told (`nestingLimit`); opening one
more is the error `tooDeep`.

`lineColumn` turns a position into a line and a column, both from 1.

Main statement: `readNumber_digit` (a digit without point or exponent reads as an integer).
-/

namespace Keyframes.Json
open Keyframes.Decimal

/-- Why reading a document failed. -/
inductive ReadError where
  /-- The text is no JSON document: what was expected or found, and the position. -/
  | malformed (message : String) (position : Nat)
  /-- Arrays and objects nest deeper than allowed; the kind of container (`array` or `object`)
  that went one level too deep. -/
  | tooDeep (container : String)
deriving Repr, BEq

/-- How deep arrays and objects may nest in a document read under `calls` calls. Reading
recurses once per level, after one call to start, on a stack of a thousand calls that it shares
with its callers; one level more is the fault `tooDeep` rather than a document. -/
def nestingLimit (calls : Nat) : Nat := 999 - calls

/-- The message of a read error. -/
def ReadError.message : ReadError → String
  | .malformed message _ => message
  | .tooDeep container =>
    "maximum recursion depth exceeded while decoding a JSON " ++ container ++ " from a unicode string"

/-- The line and the column of a position in a document. -/
def lineColumn (doc : String) (position : Nat) : Nat × Nat :=
  let before := doc.toList.take position
  let line := (before.filter (· == '\n')).length + 1
  let column := (before.reverse.takeWhile (· != '\n')).length + 1
  (line, column)

/-- The blanks between JSON tokens. -/
def isJsonBlank (c : Char) : Bool :=
  c == ' ' || c == '\t' || c == '\n' || c == '\r'

/-- A position in the document and what is left of it from there. -/
structure Cursor where
  rest : List Char
  pos : Nat

/-- Skips blanks. -/
def Cursor.skip (c : Cursor) : Cursor :=
  let blanks := (c.rest.takeWhile isJsonBlank).length
  ⟨c.rest.drop blanks, c.pos + blanks⟩

/-- Moves past `n` characters. -/
def Cursor.advance (c : Cursor) (n : Nat) : Cursor :=
  ⟨c.rest.drop n, c.pos + n⟩

/-- The value of a hexadecimal digit. -/
def hexValue? (c : Char) : Option Nat :=
  if '0' ≤ c ∧ c ≤ '9' then some (c.toNat - 48)
  else if 'a' ≤ c ∧ c ≤ 'f' then some (c.toNat - 87)
  else if 'A' ≤ c ∧ c ≤ 'F' then some (c.toNat - 55)
  else none

/-- The value of four hexadecimal digits. -/
def hex4? (cs : List Char) : Option Nat :=
  match cs with
  | [a, b, c, d] => do
    let a ← hexValue? a
    let b ← hexValue? b
    let c ← hexValue? c
    let d ← hexValue? d
    return ((a * 16 + b) * 16 + c) * 16 + d
  | _ => none

/-- The simple escapes: the character written after a backslash and the one it stands for. -/
def simpleEscape? (e : Char) : Option Char :=
  match e with
  | '"' => some '"' | '\\' => some '\\' | '/' => some '/'
  | 'b' => some '\x08' | 'f' => some '\x0c' | 'n' => some '\n'
  | 'r' => some '\r' | 't' => some '\t' | _ => none

/-- Reads the rest of a string whose opening quote is at `begin`; `pos` is the position of the
text still to read. Gives the code points read (reversed), the text after the closing quote and
its position. A `\u` escape needs four hexadecimal digits and at least one character after
them; a high surrogate followed by a `\u` escape of a low surrogate makes one character. -/
def readStringBody (begin : Nat) (acc : List Nat) (pos : Nat) :
    List Char → Except ReadError (List Nat × List Char × Nat)
  | [] => .error (.malformed "Unterminated string starting at" begin)
  | '"' :: rest => .ok (acc, rest, pos + 1)
  | '\\' :: 'u' :: a :: b :: c :: d :: x :: xs =>
    match hex4? [a, b, c, d] with
    | none => .error (.malformed "Invalid \\uXXXX escape" (pos + 1))
    | some hi =>
      if 0xD800 ≤ hi ∧ hi < 0xDC00 ∧ x = '\\' then
        match h : xs with
        | 'u' :: e :: f :: g :: k :: y :: ys =>
          match hex4? [e, f, g, k] with
          | none => .error (.malformed "Invalid \\uXXXX escape" (pos + 7))
          | some lo =>
            if 0xDC00 ≤ lo ∧ lo < 0xE000 then
              let code := 0x10000 + (hi - 0xD800) * 0x400 + (lo - 0xDC00)
              readStringBody begin (code :: acc) (pos + 12) (y :: ys)
            else readStringBody begin (hi :: acc) (pos + 6) (x :: xs)
        | _ => readStringBody begin (hi :: acc) (pos + 6) (x :: xs)
      else readStringBody begin (hi :: acc) (pos + 6) (x :: xs)
  | '\\' :: 'u' :: _ => .error (.malformed "Invalid \\uXXXX escape" (pos + 1))
  | '\\' :: e :: rest =>
    match simpleEscape? e with
    | some ch => readStringBody begin (ch.toNat :: acc) (pos + 2) rest
    | none => .error (.malformed "Invalid \\escape" pos)
  | ['\\'] => .error (.malformed "Unterminated string starting at" begin)
  | ch :: rest =>
    if ch.toNat ≤ 0x1f then .error (.malformed "Invalid control character at" pos)
    else readStringBody begin (ch.toNat :: acc) (pos + 1) rest
termination_by cs => cs.length
decreasing_by all_goals simp_all <;> omega

/-- Reads a string whose opening quote is under the cursor: its code points. -/
def readString (c : Cursor) : Except ReadError (List Nat × Cursor) := do
  let (acc, rest, pos) ← readStringBody c.pos [] (c.pos + 1) (c.rest.drop 1)
  return (acc.reverse, ⟨rest, pos⟩)

/-- Whether a character is an ASCII digit. -/
def isAsciiDigit (c : Char) : Bool :=
  '0' ≤ c && c ≤ '9'

/-- The value of a run of ASCII digits. -/
def natOfDigits (ds : List Char) : Nat :=
  ds.foldl (fun acc d => 10 * acc + (d.toNat - 48)) 0

/-- Reads a number: an optional minus, `0` or digits not starting with `0`, an optional
fraction, an optional exponent. Gives the value and the number of characters read. -/
def readNumber (cs : List Char) : Option (Value × Nat) :=
  let (negative, body, signLength) := match cs with
    | '-' :: r => (true, r, 1)
    | r => (false, r, 0)
  let whole := match body with
    | '0' :: _ => ['0']
    | d :: _ => if isAsciiDigit d then body.takeWhile isAsciiDigit else []
    | [] => []
  if whole.isEmpty then none
  else
    let afterWhole := body.drop whole.length
    let fraction := match afterWhole with
      | '.' :: r => r.takeWhile isAsciiDigit
      | _ => []
    let afterFraction := if fraction.isEmpty then afterWhole else afterWhole.drop (1 + fraction.length)
    let exponent : Option (Int × Nat) := match afterFraction with
      | e :: r =>
        if e == 'e' || e == 'E' then
          let (eNegative, r2, eSignLength) := match r with
            | '-' :: r2 => (true, r2, 1)
            | '+' :: r2 => (false, r2, 1)
            | r2 => (false, r2, 0)
          let ds := r2.takeWhile isAsciiDigit
          if ds.isEmpty then none
          else
            let v : Int := natOfDigits ds
            some (if eNegative then -v else v, 1 + eSignLength + ds.length)
        else none
      | [] => none
    let length := signLength + whole.length +
      (if fraction.isEmpty then 0 else 1 + fraction.length) + (exponent.map (·.2)).getD 0
    if fraction.isEmpty && exponent.isNone then
      let n : Int := natOfDigits whole
      some (.int (if negative then -n else n), length)
    else
      let d : Scientific := ⟨natOfDigits (whole ++ fraction), ((exponent.map (·.1)).getD 0) - fraction.length⟩
      some (.float (d.toFloat negative), length)

theorem readNumber_digit : readNumber ['7'] = some (.int 7, 1) := rfl

/-- The double NaN. -/
def nan : Float := Float.ofBits 0x7FF8000000000000

mutual

/-- Reads a value at the cursor; `fuel` bounds the number of steps and `depth` the levels of
arrays and objects that may still open. -/
def readValue : Nat → Nat → Cursor → Except ReadError (Value × Cursor)
  | 0, _, c => .error (.malformed "Expecting value" c.pos)
  | fuel + 1, depth, c =>
    match c.rest with
    | '"' :: _ => do
      let (cs, c') ← readString c
      return (Value.ofCodes cs, c')
    | '{' :: _ =>
      match depth with
      | 0 => .error (.tooDeep "object")
      | depth + 1 =>
        let c' := (c.advance 1).skip
        match c'.rest with
        | '}' :: _ => .ok (.obj [], c'.advance 1)
        | _ => readFields fuel depth [] c'
    | '[' :: _ =>
      match depth with
      | 0 => .error (.tooDeep "array")
      | depth + 1 =>
        let c' := (c.advance 1).skip
        match c'.rest with
        | ']' :: _ => .ok (.arr [], c'.advance 1)
        | _ => readItems fuel depth [] c'
    | 'n' :: 'u' :: 'l' :: 'l' :: _ => .ok (.null, c.advance 4)
    | 't' :: 'r' :: 'u' :: 'e' :: _ => .ok (.bool true, c.advance 4)
    | 'f' :: 'a' :: 'l' :: 's' :: 'e' :: _ => .ok (.bool false, c.advance 5)
    | 'N' :: 'a' :: 'N' :: _ => .ok (.float nan, c.advance 3)
    | 'I' :: 'n' :: 'f' :: 'i' :: 'n' :: 'i' :: 't' :: 'y' :: _ =>
      .ok (.float (Binary.floatOfRounded false .overflow), c.advance 8)
    | '-' :: 'I' :: 'n' :: 'f' :: 'i' :: 'n' :: 'i' :: 't' :: 'y' :: _ =>
      .ok (.float (Binary.floatOfRounded true .overflow), c.advance 9)
    | cs =>
      match readNumber cs with
      | some (v, n) => .ok (v, c.advance n)
      | none => .error (.malformed "Expecting value" c.pos)

/-- Reads the items of an array from the cursor at an item, up to the closing bracket. -/
def readItems : Nat → Nat → List Value → Cursor → Except ReadError (Value × Cursor)
  | 0, _, _, c => .error (.malformed "Expecting value" c.pos)
  | fuel + 1, depth, items, c => do
    let (v, c') ← readValue fuel depth c
    let c' := c'.skip
    match c'.rest with
    | ']' :: _ => .ok (.arr (items ++ [v]), c'.advance 1)
    | ',' :: _ => readItems fuel depth (items ++ [v]) (c'.advance 1).skip
    | _ => .error (.malformed "Expecting ',' delimiter" c'.pos)

/-- Reads the fields of an object from the cursor at a key, up to the closing brace. A
repeated key keeps its first place and takes the later value. -/
def readFields : Nat → Nat → List (List Nat × Value) → Cursor →
    Except ReadError (Value × Cursor)
  | 0, _, _, c => .error (.malformed "Expecting value" c.pos)
  | fuel + 1, depth, fields, c =>
    match c.rest with
    | '"' :: _ => do
      let (key, c') ← readString c
      let c' := c'.skip
      match c'.rest with
      | ':' :: _ =>
        let (v, c'') ← readValue fuel depth (c'.advance 1).skip
        let c'' := c''.skip
        let fields := setField fields key v
        match c''.rest with
        | '}' :: _ => .ok (Value.ofCodeFields fields, c''.advance 1)
        | ',' :: _ => readFields fuel depth fields (c''.advance 1).skip
        | _ => .error (.malformed "Expecting ',' delimiter" c''.pos)
      | _ => .error (.malformed "Expecting ':' delimiter" c'.pos)
    | _ => .error (.malformed "Expecting property name enclosed in double quotes" c.pos)

end

/-- Reads a whole JSON document, whose arrays and objects nest at most `limit` deep: one value,
with blanks around it. -/
def read (limit : Nat) (doc : String) : Except ReadError Value :=
  let cs := doc.toList
  match cs with
  | '\uFEFF' :: _ => .error (.malformed "Unexpected UTF-8 BOM (decode using utf-8-sig)" 0)
  | _ => do
    let (v, c) ← readValue (2 * cs.length + 2) limit (Cursor.skip ⟨cs, 0⟩)
    let c := c.skip
    if c.rest.isEmpty then .ok v else .error (.malformed "Extra data" c.pos)

end Keyframes.Json
