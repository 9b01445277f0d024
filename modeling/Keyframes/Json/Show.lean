import Keyframes.Json.Value
import Keyframes.Decimal.FloatText

/-!
# Showing values

How messages and command texts show a JSON value. `Value.repr` is the quoted form: strings in
quotes with escapes (`Text.quote`), `True`, `False`, `None`, numbers as their text, arrays as
`[a, b]` and objects as `{'k': v}`, with every item in its quoted form. `Value.show` is the same
except that a string at the top shows as it is.

`Value.truthy` tells whether a value counts as present, and `Value.members` lists what taking
a value item by item gives.

Main statement: `show_str` (a string shows as itself).
-/

namespace Keyframes.Json
open Keyframes.Text

mutual

/-- The quoted form of a value. -/
def Value.repr : Value → String
  | .null => "None"
  | .bool b => if b then "True" else "False"
  | .int n => toString n
  | .float x => Decimal.floatText x
  | .str s => quote s
  | .loose cs => quoteCodes cs
  | .arr items => "[" ++ reprItems items ++ "]"
  | .obj fields => "\x7b" ++ reprFields fields ++ "\x7d"
  | .looseObj fields => "\x7b" ++ reprLooseFields fields ++ "\x7d"

/-- The quoted forms of items, separated by commas. -/
def reprItems : List Value → String
  | [] => ""
  | [v] => v.repr
  | v :: rest => v.repr ++ ", " ++ reprItems rest

/-- The quoted forms of fields `'k': v`, separated by commas. -/
def reprFields : List (String × Value) → String
  | [] => ""
  | [(k, v)] => quote k ++ ": " ++ v.repr
  | (k, v) :: rest => quote k ++ ": " ++ v.repr ++ ", " ++ reprFields rest

/-- The quoted forms of fields whose keys are given by code points. -/
def reprLooseFields : List (List Nat × Value) → String
  | [] => ""
  | [(k, v)] => quoteCodes k ++ ": " ++ v.repr
  | (k, v) :: rest => quoteCodes k ++ ": " ++ v.repr ++ ", " ++ reprLooseFields rest

end

/-- How a value shows in a text: a string as it is, anything else in its quoted form. -/
def Value.show : Value → String
  | .str s => s
  | .loose cs => Text.ofCodes cs
  | v => v.repr

/-- Whether a value counts as present: not null, false, zero or empty. -/
def Value.truthy : Value → Bool
  | .null => false
  | .bool b => b
  | .int n => n != 0
  | .float x => !(x == 0.0)
  | .str s => !s.isEmpty
  | .loose cs => !cs.isEmpty
  | .arr items => !items.isEmpty
  | .obj fields => !fields.isEmpty
  | .looseObj fields => !fields.isEmpty

/-- The items of a value taken in turn: the items of an array, the characters of a string, the
keys of an object. -/
def Value.members : Value → Except Fault (List Value)
  | .arr items => .ok items
  | .str s => .ok (s.toList.map fun c => .str (String.ofList [c]))
  | .loose cs => .ok (cs.map fun n => Value.ofCodes [n])
  | .obj fields => .ok (fields.map fun f => .str f.1)
  | .looseObj fields => .ok (fields.map fun f => Value.ofCodes f.1)
  | v => .error (.wrongType ("'" ++ v.kindName ++ "' object is not iterable"))

/-- The items of a value spread into a list of arguments: its members, when it has them; a value
that has none cannot be spread. -/
def Value.spread (v : Value) : Except Fault (List Value) :=
  match v with
  | .arr _ | .str _ | .loose _ | .obj _ => v.members
  | _ => .error (.wrongType ("Value after * must be an iterable, not " ++ v.kindName))

theorem show_str (s : String) : (Value.str s).show = s := rfl

end Keyframes.Json
