import Keyframes.Files.Host

/-!
# Logging

Log records carry a level; a record is written when its level is at least the threshold the
command line chose. A written record is one line: the logger's name under `dispa`, the level's
name and the message, separated by ` - `.

Main statement: `ofName_name` (every level is found again by its name).
-/

namespace Keyframes

/-- The levels of log records, from the most detailed. -/
inductive Level where
  | debug
  | info
  | warning
  | error
  | critical
deriving Repr, BEq, DecidableEq, Inhabited

/-- Every level, from the most detailed. -/
def Level.all : List Level := [.debug, .info, .warning, .error, .critical]

/-- The rank of a level: records at a rank below the threshold's are not written. -/
def Level.rank : Level → Nat
  | .debug => 10
  | .info => 20
  | .warning => 30
  | .error => 40
  | .critical => 50

/-- The name of a level. -/
def Level.name : Level → String
  | .debug => "DEBUG"
  | .info => "INFO"
  | .warning => "WARNING"
  | .error => "ERROR"
  | .critical => "CRITICAL"

/-- The level of a name. -/
def Level.ofName? (s : String) : Option Level :=
  Level.all.find? (·.name == s)

theorem ofName_name (l : Level) : Level.ofName? l.name = some l := by
  cases l <;> rfl

open Files in
/-- Writes a record of `logger` at `level` when the threshold lets it through. -/
def logAt {m : Type → Type} [Monad m] [Host m] (threshold : Level) (logger : String)
    (level : Level) (message : String) : ExceptT Fault m Unit :=
  if threshold.rank ≤ level.rank then
    say .log ("dispa." ++ logger ++ " - " ++ level.name ++ " - " ++ message)
  else pure ()

end Keyframes
