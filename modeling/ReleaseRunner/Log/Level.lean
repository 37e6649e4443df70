import ReleaseRunner.Failure
import ReleaseRunner.Text.Case

/-!
# Levels of log records

How grave a record is, from `debug` up, and the least level that a log lets through.
-/

namespace ReleaseRunner.Log

/-- The level of a record; `all` lies below every record. -/
inductive Level where
  | all
  | debug
  | info
  | warning
  | error
  | critical
deriving Repr, DecidableEq

namespace Level

/-- The name of a level. -/
def name : Level → String
  | all => "NOTSET"
  | debug => "DEBUG"
  | info => "INFO"
  | warning => "WARNING"
  | error => "ERROR"
  | critical => "CRITICAL"

/-- The rank of a level. -/
def rank : Level → Nat
  | all => 0
  | debug => 10
  | info => 20
  | warning => 30
  | error => 40
  | critical => 50

/-- The names of levels, of which two have a second one. -/
def names : List (String × Level) :=
  [("CRITICAL", critical), ("FATAL", critical), ("ERROR", error), ("WARN", warning),
    ("WARNING", warning), ("INFO", info), ("DEBUG", debug), ("NOTSET", all)]

/-- The level of a name, in letters of either case. -/
def read (name : String) : Except Failure Level :=
  match names.lookup (Text.capitals name) with
  | some level => .ok level
  | none => .error (.plain .value s!"Unknown level: {Text.quoted (Text.capitals name)}")

/-- A log at the first level lets records of the second one through. -/
def admits (least level : Level) : Bool :=
  least.rank ≤ level.rank

end Level

end ReleaseRunner.Log
