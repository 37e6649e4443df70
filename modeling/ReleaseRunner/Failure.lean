import ReleaseRunner.Config.Fault
import ReleaseRunner.Text.Quoted

/-!
# Failures

What a hook, a listener, a step or the program itself can fail with. A failure has a kind and
a text. Two properties of the kind decide what happens to it: release failures are reported
to the user by their text alone, and an abort is never tolerated or recorded, it ends the run
from wherever it is raised.
-/

namespace ReleaseRunner

open ReleaseRunner.Text

/-- The kinds of failure. The text of a malformed document or pattern is not part of it; the
faults are. -/
inductive FailureKind where
  | general
  | runtime
  | value
  | typing
  | missingKey
  | missingItem
  | missingAttribute
  | missingPlugin
  | overflow
  | system
  | connection
  | fileMissing
  | fileExists
  | notAFolder
  | isAFolder
  | undecodable
  | badPattern
  | badFormat
  | badMonth
  | malformed (document : String) (faults : List Config.Fault)
  | release
  | hook (command : String) (exitCode : Option Int)
  | invalidModel (problems : List String)
  | abort
  | endless
deriving Repr, DecidableEq

namespace FailureKind

/-- The name under which a kind is reported. -/
def name : FailureKind → String
  | general => "Exception"
  | runtime => "RuntimeError"
  | value => "ValueError"
  | typing => "TypeError"
  | missingKey => "KeyError"
  | missingItem => "IndexError"
  | missingAttribute => "AttributeError"
  | missingPlugin => "ImportError"
  | overflow => "OverflowError"
  | system => "OSError"
  | connection => "ConnectionError"
  | fileMissing => "FileNotFoundError"
  | fileExists => "FileExistsError"
  | notAFolder => "NotADirectoryError"
  | isAFolder => "IsADirectoryError"
  | undecodable => "UnicodeDecodeError"
  | badPattern => "error"
  | badFormat => "CalVerFormatError"
  | badMonth => "IllegalMonthError"
  | malformed .. => "ValidationError"
  | release => "ReleaseError"
  | hook .. => "HookExecutionError"
  | invalidModel .. => "ModelValidationError"
  | abort => "Abort"
  | endless => "RecursionError"

/-- A failure of this kind says all that the user needs in its text. -/
def isRelease : FailureKind → Bool
  | release | hook .. | invalidModel .. => true
  | _ => false

/-- A failure of this kind passes through everything up to the end of the run: an abort, or going on
without end. The latter stands for a run that comes to no end by itself, since its scripts fire
events within events or register listeners for ever. Where such a run is cut off, the failure that
cuts it off is an ordinary one, which deliveries, items and hooks catch; what they make of it is
left out here. -/
def isAbort : FailureKind → Bool
  | abort | endless => true
  | _ => false

end FailureKind

/-- A failure, or the release failure that stands for one that nobody can expect. -/
inductive Failure where
  | plain (kind : FailureKind) (text : String)
  | unexpected (cause : Failure)
deriving Repr, DecidableEq

namespace Failure

/-- The kind of a failure. -/
def kind : Failure → FailureKind
  | plain kind _ => kind
  | unexpected _ => .release

/-- What a failure says. -/
def text : Failure → String
  | plain _ text => text
  | unexpected _ => "Unexpected error"

/-- The failure that this one stands for. -/
def cause? : Failure → Option Failure
  | plain .. => none
  | unexpected cause => some cause

/-- The failure ends the run from wherever it is raised. -/
def isAbort (failure : Failure) : Bool :=
  failure.kind.isAbort

/-- The failure with its kind, as it stands in reports. -/
def titled (failure : Failure) : String :=
  s!"{failure.kind.name}: {failure.text}"

/-- A release failure that says the given text. -/
def release (text : String) : Failure :=
  plain .release text

/-- A key that is not there; the text is the quoted key. -/
def missingKey (key : String) : Failure :=
  plain .missingKey (quoted key)

/-- A configuration with problems, one a line. -/
def invalidModel (problems : List String) : Failure :=
  plain (.invalidModel problems)
    ("Invalid release configuration:\n- " ++ "\n- ".intercalate problems)

/-- A document that does not follow its schema. -/
def malformed (document : String) (faults : List Config.Fault) : Failure :=
  plain (.malformed document faults) ""

end Failure

/-- A listener that failed, whether it tolerates its failures, and the failure. -/
structure ListenerFailure where
  listener : String
  tolerant : Bool
  cause : Failure
deriving Repr, DecidableEq

/-- What the failure of a listener says. -/
def ListenerFailure.text (f : ListenerFailure) : String :=
  s!"Listener {quoted f.listener} failed: {f.cause.text}"

end ReleaseRunner
