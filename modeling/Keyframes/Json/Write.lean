import Keyframes.Json.Value
import Keyframes.Decimal.FloatText

/-!
# Writing JSON

Writes a JSON value in ASCII: strings through `jsonQuote`, integers in decimal, doubles as their
shortest text with the words `NaN`, `Infinity` and `-Infinity` for the values that are not
finite. Without indentation, items are separated by `, ` and keys by `: `; with an indentation
of `n`, every item stands on its own line, `n` spaces deeper than its container, and items are
separated by `,` at the end of the line. Empty arrays and objects are `[]` and `{}`.

Main statement: `write_str` (a string value is written as its JSON quotation).
-/

namespace Keyframes.Json
open Keyframes.Text Keyframes.Decimal

/-- The text of a double in a JSON document. -/
def floatJson (x : Float) : String :=
  match floatText x with
  | "nan" => "NaN"
  | "inf" => "Infinity"
  | "-inf" => "-Infinity"
  | t => t

/-- How items are laid out: on one line, or on lines of their own indented by `step` spaces
per level. -/
inductive Layout where
  | inline
  | indented (step : Nat)

/-- The separator before an item at nesting `level` (the first item of a container when
`first`). -/
def Layout.before (l : Layout) (level : Nat) (first : Bool) : String :=
  match l with
  | .inline => if first then "" else ", "
  | .indented step =>
    (if first then "\n" else ",\n") ++ String.ofList (List.replicate (step * level) ' ')

/-- The text before the closing bracket of a non-empty container at nesting `level`. -/
def Layout.close (l : Layout) (level : Nat) : String :=
  match l with
  | .inline => ""
  | .indented step => "\n" ++ String.ofList (List.replicate (step * level) ' ')

mutual

/-- Writes a value at nesting `level`. -/
def writeAt (l : Layout) (level : Nat) : Value → String
  | .null => "null"
  | .bool b => if b then "true" else "false"
  | .int n => toString n
  | .float x => floatJson x
  | .str s => jsonQuote s
  | .loose cs => jsonQuoteCodes cs
  | .arr [] => "[]"
  | .arr items => "[" ++ writeItems l (level + 1) true items ++ l.close level ++ "]"
  | .obj [] => "\x7b\x7d"
  | .obj fields => "\x7b" ++ writeFields l (level + 1) true fields ++ l.close level ++ "\x7d"
  | .looseObj [] => "\x7b\x7d"
  | .looseObj fields =>
    "\x7b" ++ writeLooseFields l (level + 1) true fields ++ l.close level ++ "\x7d"

/-- Writes the items of an array at nesting `level`. -/
def writeItems (l : Layout) (level : Nat) (first : Bool) : List Value → String
  | [] => ""
  | v :: rest => l.before level first ++ writeAt l level v ++ writeItems l level false rest

/-- Writes the fields of an object at nesting `level`. -/
def writeFields (l : Layout) (level : Nat) (first : Bool) : List (String × Value) → String
  | [] => ""
  | (k, v) :: rest =>
    l.before level first ++ jsonQuote k ++ ": " ++ writeAt l level v ++
      writeFields l level false rest

/-- Writes the fields of an object whose keys are given by code points. -/
def writeLooseFields (l : Layout) (level : Nat) (first : Bool) : List (List Nat × Value) → String
  | [] => ""
  | (k, v) :: rest =>
    l.before level first ++ jsonQuoteCodes k ++ ": " ++ writeAt l level v ++
      writeLooseFields l level false rest

end

/-- Writes a value on one line. -/
def Value.write (v : Value) : String :=
  writeAt .inline 0 v

/-- Writes a value with every item on its own line, indented by `step` spaces per level. -/
def Value.writeIndented (step : Nat) (v : Value) : String :=
  writeAt (.indented step) 0 v

theorem write_str (s : String) : (Value.str s).write = jsonQuote s := by
  simp [Value.write, writeAt]

end Keyframes.Json
