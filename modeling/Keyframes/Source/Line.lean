import Keyframes.Source.Statement
import Keyframes.Source.Token
import Keyframes.Text.Case
import Keyframes.Text.Digit
import Keyframes.Decimal.Read

/-!
# Reading one line

A line that starts with `/` (after blanks) is a raw command: `//` runs it on every tick, a
single `/` at the current offset. Any other line loses its comment and is cut into tokens; the
first token is the keyword (any case, with aliases), the others its arguments. Every keyword
checks its argument count, then each argument in a fixed order, and the first failing check
is the line's fault, at the column of the token it concerns (the keyword for an unknown keyword
or a wrong count).

Names are runs of ASCII letters, digits, `_` and `-` (a single line feed may end the text).
Integers are an optional minus and decimal digits; numbers an optional sign, digits with an
optional point and fraction (or a point and digits) and an optional exponent; both take digits
of any script. A number must stay finite in single precision.

An integer of more than `Decimal.maxIntegerDigits` digits passes the check of its form but
cannot be converted: that fault escapes the line's checks (`LineFault.escapes`). `readLine`
reports it as a value error, and every other fault as a fault of the line.

Main statement: `readLine_blank` (an empty line is no statement).
-/

namespace Keyframes.Source
open Keyframes.Text

-- `^` on naturals and integers is core's power here, also where Mathlib is loaded.
attribute [local instance] corePow

/-- What is wrong with a line. -/
inductive LineFault where
  | unknownKeyword (word : String)
  | argumentCount (keyword : String) (atLeast : Bool) (expected found : Nat)
  | badName (name : String)
  | noAnimationName (text : String)
  | badInteger (text : String)
  | negativeTicks (text : String)
  | badNumber (text : String)
  | badCoordinate (text : String)
  | outOfRange (text : String)
  | badAxis (text : String)
  | axisComponents (text : String)
  | zeroAxis (text : String)
  | badEntityKind (text : String)
  | unclosedBlockState (state : String)
  | propertyWithoutEquals (state : String)
  | emptyRaw
  | objectRedeclared (firstLine : Nat)
  /-- An integer with more digits than conversion takes. -/
  | tooManyDigits (digits : Nat)
deriving Repr, BEq, DecidableEq

/-- The message of a line fault. -/
def LineFault.message : LineFault → String
  | .unknownKeyword w => "Keyword '" ++ w ++ "' is invalid."
  | .argumentCount k atLeast n found =>
    "Keyword '" ++ k ++ "' expects " ++ (if atLeast then "at least " else "") ++ toString n ++
      " arguments, found " ++ toString found ++ "."
  | .badName n => "Name '" ++ n ++ "' contains invalid characters."
  | .noAnimationName t => "'" ++ t ++ "' has no animation name (expected OBJECT:ANIMATION)."
  | .badInteger t => "'" ++ t ++ "' is not a valid integer."
  | .negativeTicks t => "Tick count '" ++ t ++ "' must not be negative."
  | .badNumber t => "'" ++ t ++ "' is not a valid number."
  | .badCoordinate t => "'" ++ t ++ "' is not a valid coordinate."
  | .outOfRange t => "'" ++ t ++ "' is out of range for a float32 value."
  | .badAxis t => "Axis '" ++ t ++ "' must be x, y, z or [a,b,c]."
  | .axisComponents t => "Axis '" ++ t ++ "' needs exactly three components."
  | .zeroAxis t => "Axis '" ++ t ++ "' must not be the zero vector."
  | .badEntityKind t =>
    "Entity type '" ++ t ++ "' is invalid (expected one of: " ++
      ", ".intercalate (EntityKind.all.map (·.name)) ++ ")."
  | .unclosedBlockState s => "Block state '" ++ s ++ "' is missing a closing ']'."
  | .propertyWithoutEquals s => "Block state '" ++ s ++ "' has a property without '='."
  | .emptyRaw => "Raw command is empty."
  | .objectRedeclared k => "Object name already declared on line " ++ toString k ++ "."
  | .tooManyDigits n => Decimal.tooManyDigitsMessage n

/-- Whether a fault escapes the checks of the line: converting an integer with too many digits
fails with a value error of its own, which is no fault of the line. -/
def LineFault.escapes : LineFault → Bool
  | .tooManyDigits _ => true
  | _ => false

/-- A line fault at a column. -/
abbrev Checked (α : Type) := Except (Nat × LineFault) α

/-- Fails at the column of a token. -/
def failAt {α : Type} (t : Token) (f : LineFault) : Checked α :=
  .error (t.column, f)

/-- The characters names are made of. -/
def isNameChar (c : Char) : Bool :=
  c.isAlphanum || c == '_' || c == '-'

/-- Whether a text is a name: one or more name characters, perhaps followed by one line feed. -/
def isName (s : String) : Bool :=
  let cs := s.toList
  let body := if cs.getLast? = some '\n' then cs.dropLast else cs
  !body.isEmpty && body.all isNameChar

/-- Reads a run of decimal digits of any script: their value, their number, and the rest. -/
def digitRun (cs : List Char) : Nat × Nat × List Char :=
  let ds := cs.takeWhile isDigit
  (ds.foldl (fun acc d => 10 * acc + (digitValue? d).getD 0) 0, ds.length, cs.drop ds.length)

/-- The integer a text spells: an optional minus and one or more digits. -/
def integer? (cs : List Char) : Option Int :=
  let (negative, body) := match cs with
    | '-' :: r => (true, r)
    | r => (false, r)
  let (v, n, rest) := digitRun body
  if 0 < n ∧ rest.isEmpty then some (if negative then -(v : Int) else v) else none

/-- The double a number text spells: an optional sign, digits with an optional point and
fraction or a point and digits, and an optional exponent. -/
def number? (cs : List Char) : Option Float :=
  let (negative, body) := match cs with
    | '-' :: r => (true, r)
    | '+' :: r => (false, r)
    | r => (false, r)
  let (w, wn, r1) := digitRun body
  let mantissa : Option (Nat × Nat × List Char) :=
    match r1 with
    | '.' :: r2 =>
      let (f, fn, r3) := digitRun r2
      if 0 < wn ∨ 0 < fn then some (w * 10 ^ fn + f, fn, r3) else none
    | _ => if 0 < wn then some (w, 0, r1) else none
  match mantissa with
  | none => none
  | some (m, fn, rest) =>
    let exponent : Option Int :=
      match rest with
      | [] => some 0
      | e :: r =>
        if e = 'e' ∨ e = 'E' then
          let (eNegative, r') := match r with
            | '-' :: r' => (true, r')
            | '+' :: r' => (false, r')
            | r' => (false, r')
          let (v, n, r'') := digitRun r'
          if 0 < n ∧ r''.isEmpty then some (if eNegative then -(v : Int) else v) else none
        else none
    exponent.map fun e => Decimal.Scientific.toFloat negative ⟨m, e - fn⟩

/-- A name argument. -/
def nameArg (t : Token) : Checked String :=
  if isName t.text then .ok t.text else failAt t (.badName t.text)

/-- An integer argument; one of more than `Decimal.maxIntegerDigits` digits cannot be
converted. -/
def integerArg (t : Token) : Checked Int :=
  match integer? t.text.toList with
  | some v =>
    let digits := (t.text.toList.filter isDigit).length
    if Decimal.maxIntegerDigits < digits then failAt t (.tooManyDigits digits) else .ok v
  | none => failAt t (.badInteger t.text)

/-- A tick count argument: an integer that is not negative. -/
def ticksArg (t : Token) : Checked Nat := do
  let v ← integerArg t
  if v < 0 then failAt t (.negativeTicks t.text) else .ok v.toNat

/-- A number read from `body`, a part of token `t`; `fault` when it is not a number. -/
def numberIn (t : Token) (body : List Char) (fault : LineFault) : Checked Float :=
  match number? body with
  | none => failAt t fault
  | some v => if Binary.isSingleFinite v then .ok v else failAt t (.outOfRange t.text)

/-- A number argument. -/
def numberArg (t : Token) : Checked Float :=
  numberIn t t.text.toList (.badNumber t.text)

/-- A coordinate argument: a number, or `~` and an optional number. -/
def coordinateArg (t : Token) : Checked Coordinate :=
  match t.text.toList with
  | '~' :: [] => .ok ⟨0.0, true⟩
  | '~' :: body => do return ⟨← numberIn t body (.badCoordinate t.text), true⟩
  | body => do return ⟨← numberIn t body (.badCoordinate t.text), false⟩

/-- Cuts a text at every occurrence of a separator, keeping empty pieces. -/
def piecesOf (sep : Char) : List Char → List (List Char)
  | [] => [[]]
  | c :: rest =>
    match piecesOf sep rest with
    | [] => [[c]]
    | first :: more => if c = sep then [] :: first :: more else (c :: first) :: more

/-- An axis argument: `x`, `y`, `z` in any case, or three numbers between brackets, separated
by commas, not all zero. -/
def axisArg (t : Token) : Checked Geometry.Vec3 := do
  let text := (lowerWord t.text).toList
  if text = ['x'] then return ⟨1.0, 0.0, 0.0⟩
  if text = ['y'] then return ⟨0.0, 1.0, 0.0⟩
  if text = ['z'] then return ⟨0.0, 0.0, 1.0⟩
  if !(text.head? = some '[' ∧ text.getLast? = some ']') then failAt t (.badAxis t.text)
  else
    let inner := (text.drop 1).dropLast.filter (· != ' ')
    let values ← (piecesOf ',' inner).mapM fun p => numberIn t p (.badAxis t.text)
    match values with
    | [x, y, z] =>
      if x == 0.0 && y == 0.0 && z == 0.0 then failAt t (.zeroAxis t.text)
      else return ⟨x, y, z⟩
    | _ => failAt t (.axisComponents t.text)

/-- The keywords of the line language. -/
inductive Keyword where
  | object | wait | translate | rotate | scale | spawn | item | block | text | teleport | setblock
deriving Repr, BEq, DecidableEq

/-- The keyword a lowered word spells, with its aliases. -/
def Keyword.ofWord? : String → Option Keyword
  | "object" | "anim" => some .object
  | "wait" | "delay" => some .wait
  | "translate" | "move" | "m" => some .translate
  | "rotate" | "turn" | "r" => some .rotate
  | "scale" | "size" | "s" => some .scale
  | "spawn" => some .spawn
  | "item" => some .item
  | "block" => some .block
  | "text" => some .text
  | "teleport" | "tp" => some .teleport
  | "setblock" => some .setblock
  | _ => none

/-- A line cut into its text before the comment, its keyword and its arguments. -/
structure Words where
  text : List Char
  keyword : Token
  args : List Token

/-- Insists on `count` arguments, or at least `count`. -/
def Words.expect (w : Words) (count : Nat) (atLeast : Bool := false) : Checked Unit :=
  let got := w.args.length
  if (if atLeast then got < count else got ≠ count) then
    failAt w.keyword (.argumentCount w.keyword.text atLeast count got)
  else .ok ()

/-- The argument at position `i` (the keyword itself if there is none). -/
def Words.arg (w : Words) (i : Nat) : Token :=
  w.args.getD i w.keyword

/-- The text of the line from argument `i` to its end, blanks around it removed. -/
def Words.rest (w : Words) (i : Nat) : String :=
  String.ofList (trim (w.text.drop ((w.arg i).column - 1)))

/-- The text before the first occurrence of a character and the text after it. -/
def splitAtFirst (sep : Char) (cs : List Char) : List Char × List Char :=
  (cs.takeWhile (· != sep), (cs.dropWhile (· != sep)).drop 1)

/-- Reads the properties of a block state `name=value,…`. -/
def blockProperties (stateToken : Token) (state : String) (body : List Char) :
    Checked (List (String × String)) :=
  if body.isEmpty then .ok []
  else (piecesOf ',' body).mapM fun part =>
    if part.contains '=' then
      let (n, v) := splitAtFirst '=' part
      .ok (String.ofList (trim n), String.ofList (trim v))
    else failAt stateToken (.propertyWithoutEquals state)

/-- Reads the statement of a line with a keyword. -/
def Words.statement (w : Words) : Checked Statement :=
  match Keyword.ofWord? (lowerWord w.keyword.text) with
  | none => failAt w.keyword (.unknownKeyword w.keyword.text)
  | some .object => do
    w.expect 1
    let t := w.arg 0
    let cs := t.text.toList
    if !cs.contains ':' then failAt t (.noAnimationName t.text)
    else
      let (o, a) := splitAtFirst ':' cs
      let o := String.ofList o
      let a := String.ofList a
      if !isName o then failAt t (.badName o)
      else if !isName a then failAt t (.badName a)
      else return .objectName o a
  | some .wait => do
    w.expect 1
    return .wait (← ticksArg (w.arg 0))
  | some .translate => do
    w.expect 5
    let e ← nameArg (w.arg 0)
    let x ← coordinateArg (w.arg 1)
    let y ← coordinateArg (w.arg 2)
    let z ← coordinateArg (w.arg 3)
    return .translate e ⟨x, y, z⟩ (← ticksArg (w.arg 4))
  | some .scale => do
    w.expect 5
    let e ← nameArg (w.arg 0)
    let x ← coordinateArg (w.arg 1)
    let y ← coordinateArg (w.arg 2)
    let z ← coordinateArg (w.arg 3)
    return .scale e ⟨x, y, z⟩ (← ticksArg (w.arg 4))
  | some .rotate => do
    let w := { w with args := joinBrackets w.args }
    w.expect 4
    let e ← nameArg (w.arg 0)
    let axis ← axisArg (w.arg 1)
    let angle ← numberArg (w.arg 2)
    return .rotate e axis angle (← ticksArg (w.arg 3))
  | some .spawn => do
    w.expect 3
    let t := w.arg 1
    let lowered := (lowerWord t.text).toList
    let bare := if lowered.take 10 = "minecraft:".toList then lowered.drop 10 else lowered
    match EntityKind.ofName? (String.ofList bare) with
    | none => failAt t (.badEntityKind t.text)
    | some kind =>
      let source ← nameArg (w.arg 0)
      return .spawn source kind (← nameArg (w.arg 2))
  | some .item => do
    w.expect 2 true
    return .item (← nameArg (w.arg 0)) (w.rest 1)
  | some .text => do
    w.expect 2 true
    return .text (← nameArg (w.arg 0)) (w.rest 1)
  | some .block => do
    w.expect 2 true
    let e ← nameArg (w.arg 0)
    let stateToken := w.arg 1
    let state := w.rest 1
    let cs := state.toList
    if !cs.contains '[' then return .block e state []
    else
      let (blockId, after) := splitAtFirst '[' cs
      if after.getLast? ≠ some ']' then failAt stateToken (.unclosedBlockState state)
      else
        let props ← blockProperties stateToken state (trim after.dropLast)
        return .block e (String.ofList (trim blockId)) props
  | some .teleport => do
    w.expect 4
    let x ← numberArg (w.arg 1)
    let y ← numberArg (w.arg 2)
    let z ← numberArg (w.arg 3)
    return .teleport (← nameArg (w.arg 0)) ⟨x, y, z⟩
  | some .setblock => do
    w.expect 4
    let x ← integerArg (w.arg 0)
    let y ← integerArg (w.arg 1)
    let z ← integerArg (w.arg 2)
    return .placeBlock x y z (w.arg 3).text

/-- Checks one line: `none` for a line without tokens, else its statement; a fault comes with
its column. -/
def checkLine (line : String) : Checked (Option Statement) :=
  let cs := line.toList
  let stripped := trim cs
  match stripped with
  | '/' :: _ =>
    let command := trim (stripped.dropWhile (· == '/'))
    if command.isEmpty then .error (cs.idxOf '/' + 1, .emptyRaw)
    else .ok (some (.raw (String.ofList command) (stripped.take 2 != ['/', '/'])))
  | _ =>
    let text := stripComment cs
    match tokens text with
    | [] => .ok none
    | keyword :: args => (Words.statement ⟨text, keyword, args⟩).map some

/-- The line error of a fault at `column` of line `number` of the file `path`. -/
def LineFault.at (f : LineFault) (path : String) (number : Int) (column : Nat) : LineError :=
  ⟨path, number, column, f.message⟩

/-- Reads one line of a source: a fault of the line is a line error, which carries the path,
the line number and the column; a fault that escapes the line's checks is a value error. -/
def readLine (path : String) (number : Int) (line : String) : Except Fault (Option Statement) :=
  (checkLine line).mapError fun (column, f) =>
    if f.escapes then .refused f.message else .line (f.at path number column)

theorem readLine_blank (path : String) (number : Int) :
    readLine path number "" = .ok none := rfl

end Keyframes.Source
