import Keyframes.Text.Quoted

/-!
# Faults

Every way an operation of the library can fail, as a cause with the data that its message
shows. `Fault.message` is the one place where the text of a failure is written.

A `LineError` locates a fault in a source file: the path, the line as the caller numbers it (a
source counts its lines from 1) and the column (from 1, in characters).

Main statement: `isBadInput_refusesValue` (every bad input is a refused value, so a build
records it against its file).
-/

namespace Keyframes

/-- A fault of one line of a source file. -/
structure LineError where
  path : String
  line : Int
  column : Nat
  message : String
deriving Repr, BEq, DecidableEq

/-- The report of a line error: a heading, then the file, the position and the message on
indented lines. -/
def LineError.render (e : LineError) : String :=
  "Compilation Error:\n  File: " ++ e.path ++ "\n  Line: " ++ toString e.line ++ ", Column: " ++
    toString e.column ++ "\n  Error: " ++ e.message

/-- The failures of file operations, as the operating system numbers them. -/
inductive FileError where
  /-- Nothing is at the path, or a directory on the way is missing. -/
  | notFound
  /-- Something is already at the path. -/
  | alreadyExists
  /-- A component on the way is a file. -/
  | notADirectory
  /-- The path leads to a directory where a file is needed. -/
  | isADirectory
  /-- The path, or a component of it, is longer than the system takes. -/
  | nameTooLong
  /-- Any other failure, with the system's number and text. -/
  | other (number : Nat) (text : String)
deriving Repr, BEq, DecidableEq

/-- The system's number of a file error. -/
def FileError.number : FileError → Nat
  | .notFound => 2
  | .alreadyExists => 17
  | .notADirectory => 20
  | .isADirectory => 21
  | .nameTooLong => 36
  | .other number _ => number

/-- The system's text of a file error. -/
def FileError.text : FileError → String
  | .notFound => "No such file or directory"
  | .alreadyExists => "File exists"
  | .notADirectory => "Not a directory"
  | .isADirectory => "Is a directory"
  | .nameTooLong => "File name too long"
  | .other _ text => text

/-- The causes of failure. -/
inductive Fault where
  /-- A finite double that rounds beyond the single-precision range. -/
  | singleOverflow
  /-- An integer beyond the double range. -/
  | intTooLarge
  /-- A value that is not finite where a single-precision text is asked for; `shown` is the
  value's text. -/
  | nonFiniteSingle (shown : String)
  /-- A rotation axis of length zero. -/
  | zeroAxis
  /-- A trigonometric function at an infinite argument. -/
  | mathDomain
  /-- Fewer values than places to put them. -/
  | tooFewValues (expected got : Nat)
  /-- More values than places to put them. -/
  | tooManyValues (expected : Nat)
  /-- A text that is not a number. -/
  | notANumber (text : List Nat)
  /-- A value outside a closed set of names; `shown` is the value as messages show it. -/
  | notInSet (shown : String) (setName : String)
  /-- A value that a rule refuses, with the rule's own message. -/
  | refused (message : String)
  /-- One faulty source line. -/
  | line (e : LineError)
  /-- All faulty lines of a source, in order. -/
  | lines (es : List LineError)
  /-- An input file or document that fails validation. -/
  | badInput (message : String)
  /-- A key that a mapping lacks; `shown` is the key as messages show it. -/
  | missingKey (shown : String)
  /-- A value of the wrong type for an operation. -/
  | wrongType (message : String)
  /-- A value without the member an operation needs. -/
  | noMember (message : String)
  /-- A file operation that failed at a path, given by its code points. -/
  | file (error : FileError) (path : List Nat)
  /-- Reading that recursed deeper than it may, with the message saying where. -/
  | tooDeep (message : String)
  /-- A text that cannot be encoded as UTF-8: the lone surrogate at `position` (counted in
  characters) and the number of lone surrogates in a row there. -/
  | unencodable (unit position count : Nat)
  /-- An infinite double where a whole number is needed. -/
  | infiniteToInt
deriving Repr, BEq

/-- The message of a fault. -/
def Fault.message : Fault → String
  | .singleOverflow => "float too large to pack with f format"
  | .intTooLarge => "int too large to convert to float"
  | .nonFiniteSingle shown => "cannot format non-finite float32: " ++ shown
  | .zeroAxis => "rotation axis must not be the zero vector"
  | .mathDomain => "math domain error"
  | .tooFewValues expected got =>
    "not enough values to unpack (expected " ++ toString expected ++ ", got " ++ toString got ++ ")"
  | .tooManyValues expected => "too many values to unpack (expected " ++ toString expected ++ ")"
  | .notANumber text => "could not convert string to float: " ++ Text.quoteCodes text
  | .notInSet shown setName => shown ++ " is not a valid " ++ setName
  | .refused message => message
  | .line e => e.render
  | .lines es => "\n".intercalate ((List.range es.length).zip es |>.map fun (i, e) =>
      toString i ++ ": " ++ e.render)
  | .badInput message => message
  | .missingKey shown => shown
  | .wrongType message => message
  | .noMember message => message
  | .file error path =>
    "[Errno " ++ toString error.number ++ "] " ++ error.text ++ ": " ++ Text.quoteCodes path
  | .tooDeep message => message
  | .unencodable unit position count =>
    if count ≤ 1 then
      "'utf-8' codec can't encode character '\\u" ++ String.ofList (Text.hexDigits 4 unit) ++
        "' in position " ++ toString position ++ ": surrogates not allowed"
    else
      "'utf-8' codec can't encode characters in position " ++ toString position ++ "-" ++
        toString (position + count - 1) ++ ": surrogates not allowed"
  | .infiniteToInt => "cannot convert float infinity to integer"

/-- Whether a fault refuses a value: a value or a document that the operation will not take, as
opposed to an arithmetic overflow, a value of the wrong type or a failed file operation. A build
records such a fault against its file and goes on with the next. -/
def Fault.refusesValue : Fault → Bool
  | .nonFiniteSingle _ | .zeroAxis | .mathDomain | .tooFewValues _ _ | .tooManyValues _
  | .notANumber _ | .notInSet _ _ | .refused _ | .line _ | .lines _ | .badInput _ => true
  | _ => false

/-- Whether a fault reports a bad input: a source with faulty lines, or a file or document that
fails validation. The command line reports these and exits with status 2. -/
def Fault.isBadInput : Fault → Bool
  | .line _ | .lines _ | .badInput _ => true
  | _ => false

theorem isBadInput_refusesValue {f : Fault} (h : f.isBadInput) : f.refusesValue := by
  cases f <;> simp_all [Fault.isBadInput, Fault.refusesValue]

end Keyframes
