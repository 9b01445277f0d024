import Keyframes.Number
import Keyframes.Binary.Single
import Keyframes.Text.Surrogate

/-!
# JSON values

A JSON value keeps integers and doubles apart, as the documents this library reads do: `1` is an
integer and `1.0` a double. An object is a list of fields in the order their keys first
appeared; writing a key again replaces the value in place (`Value.set`). A string that holds
a lone surrogate, which only a `\u` escape in a document can give, is kept by its code points
(`loose`); every other string is a `str`. So is an object with such a key (`looseObj`).

Main statements: `getField?_setField` (a field reads back what was set) and
`keys_setField_of_mem` (replacing a field keeps the order of the keys).
-/

namespace Keyframes.Json

/-- A JSON value. -/
inductive Value where
  | null
  | bool (b : Bool)
  | int (n : Int)
  | float (x : Float)
  | str (s : String)
  /-- A string that holds lone surrogates, which no `String` can: its code points. -/
  | loose (codes : List Nat)
  | arr (items : List Value)
  | obj (fields : List (String × Value))
  /-- An object with a key that holds lone surrogates: its fields, each key by its code
  points. -/
  | looseObj (fields : List (List Nat × Value))
deriving Repr, Inhabited

/-- The string of a text given by code points: `loose` when it holds a lone surrogate, else
`str`. -/
def Value.ofCodes (cs : List Nat) : Value :=
  if cs.any Text.isSurrogate then .loose cs else .str (Text.ofCodes cs)

/-- The text of a string value, a lone surrogate read as the replacement character. -/
def Value.text? : Value → Option String
  | .str s => some s
  | .loose cs => some (Text.ofCodes cs)
  | _ => none

/-- The fields of an object, a lone surrogate in a key read as the replacement character. -/
def Value.fields? : Value → Option (List (String × Value))
  | .obj fields => some fields
  | .looseObj fields => some (fields.map fun f => (Text.ofCodes f.1, f.2))
  | _ => none

/-- The object of fields whose keys are given by code points: `looseObj` when a key holds a
lone surrogate, else `obj`. -/
def Value.ofCodeFields (fields : List (List Nat × Value)) : Value :=
  if fields.any (fun f => f.1.any Text.isSurrogate) then .looseObj fields
  else .obj (fields.map fun f => (Text.ofCodes f.1, f.2))

/-- The code points of a string value. -/
def Value.codes? : Value → Option (List Nat)
  | .str s => some (Text.codes s)
  | .loose cs => some cs
  | _ => none

/-- Sets a field of a field list: replaces the value in place when the key is there, else
appends the field. -/
def setField {κ : Type} [DecidableEq κ] : List (κ × Value) → κ → Value → List (κ × Value)
  | [], key, v => [(key, v)]
  | f :: rest, key, v => if f.1 = key then (key, v) :: rest else f :: setField rest key v

/-- The value of a field, if the key is there. -/
def getField? {κ : Type} [DecidableEq κ] : List (κ × Value) → κ → Option Value
  | [], _ => none
  | f :: rest, key => if f.1 = key then some f.2 else getField? rest key

theorem getField?_setField {κ : Type} [DecidableEq κ] (fields : List (κ × Value)) (key : κ)
    (v : Value) :
    getField? (setField fields key v) key = some v := by
  induction fields with
  | nil => simp [setField, getField?]
  | cons f rest ih =>
    by_cases h : f.1 = key
    · simp [setField, getField?, h]
    · simp [setField, getField?, h, ih]

theorem keys_setField_of_mem {κ : Type} [DecidableEq κ] (fields : List (κ × Value)) (key : κ)
    (v : Value)
    (h : key ∈ fields.map (·.1)) :
    (setField fields key v).map (·.1) = fields.map (·.1) := by
  induction fields with
  | nil => simp at h
  | cons f rest ih =>
    by_cases hf : f.1 = key
    · simp [setField, hf]
    · have : key ∈ rest.map (·.1) := by
        simp only [List.map_cons, List.mem_cons] at h
        rcases h with e | e
        · exact absurd e.symm hf
        · exact e
      simp [setField, hf, ih this]

/-- Builds an object from fields read in order: a repeated key keeps its first place and its
last value. -/
def objOfFields (fields : List (String × Value)) : Value :=
  .obj (fields.foldl (fun acc f => setField acc f.1 f.2) [])

/-- The value of a field of an object; `none` for a missing key or a value that is no object. -/
def Value.get? (v : Value) (key : String) : Option Value :=
  match v with
  | .obj fields => getField? fields key
  | .looseObj fields => getField? fields (Text.codes key)
  | _ => none

/-- The name of the kind of a value, as messages about wrong kinds show it. -/
def Value.kindName : Value → String
  | .null => "NoneType"
  | .bool _ => "bool"
  | .int _ => "int"
  | .float _ => "float"
  | .str _ => "str"
  | .loose _ => "str"
  | .arr _ => "list"
  | .obj _ => "dict"
  | .looseObj _ => "dict"

/-- A value read as a double: an integer rounded to nearest, a boolean as one or zero, a string
read as the text of a number. Other values are of the wrong kind. -/
def Value.toFloat : Value → Except Fault Float
  | .int n => Binary.ofInt? n
  | .bool b => Binary.ofInt? (if b then 1 else 0)
  | .float x => .ok x
  | .str s => Decimal.readFloat s
  | .loose cs => .error (.notANumber cs)
  | v => .error (.wrongType
      ("float() argument must be a string or a real number, not '" ++ v.kindName ++ "'"))

/-- Whether a value, read as a double, stays finite once rounded to single precision. An integer
too large for a double is not finite; a value that is no number is refused as `Value.toFloat`
refuses it. -/
def Value.isSingleFinite (v : Value) : Except Fault Bool :=
  match v.toFloat with
  | .ok x => .ok (Binary.isSingleFinite x)
  | .error .intTooLarge => .ok false
  | .error e => .error e

/-- The number of a JSON integer or double; booleans count as the integers one and zero. -/
def Value.toNumber? : Value → Option Number
  | .int n => some (.int n)
  | .float x => some (.float x)
  | .bool b => some (.int (if b then 1 else 0))
  | _ => none

end Keyframes.Json
