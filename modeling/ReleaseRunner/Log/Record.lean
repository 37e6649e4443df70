import ReleaseRunner.Failure
import ReleaseRunner.Json.Value
import ReleaseRunner.Log.Level
import ReleaseRunner.Log.Template

/-!
# Log records

A record has a level, the name of its logger, a message, and further members under names of
the caller's choice. Names that a record uses for itself are refused, and names that begin
with an underscore are not shown. A record is dropped where its message does not fit the values
or its members leave nothing to show.

The further members are those of an object: texts for names, and for values texts, numbers, truth
values, nothing, lists and objects of these. Other values, which are shown as the text they give of
themselves, are left out, and so is what cannot be written at all: names that are no texts, values
that hold themselves, and text with half a surrogate pair.
-/

namespace ReleaseRunner.Log

/-- A record as it is shown. -/
structure Record where
  level : Level
  logger : String
  message : String
  extra : Members
  traceback : Bool

namespace Record

/-- The names of the parts of a record, which no further member may have. -/
def ownNames : List String :=
  ["message", "asctime", "name", "msg", "args", "levelname", "levelno", "pathname", "filename",
    "module", "exc_info", "exc_text", "stack_info", "lineno", "funcName", "created", "msecs",
    "relativeCreated", "thread", "threadName", "processName", "process"]

/-- The failure to log under a name that is taken; the first one in order decides. -/
def refusal? (extra : Members) : Option Failure :=
  (extra.find? fun (name, _) => ownNames.contains name).map fun (name, _) =>
    .missingKey s!"Attempt to overwrite {Text.quoted name} in LogRecord"

/-- The member is shown. The name of the running task belongs to the record as well. -/
def isShown (name : String) : Bool :=
  !name.startsWith "_" && name != "taskName"

/-- The name under which a record is asked for its message. -/
def messageName : String := "getMessage"

/-- The record can be shown with these members: none of them is in the way of its message, and
all that are shown can be written. -/
def isShowable (extra : Members) : Bool :=
  extra.all fun (name, value) => name != messageName && (value.isWritable || !isShown name)

/-- The record of a message with its values filled in; none if they do not fit, or if it cannot
be shown with its members. -/
def make? (logger : String) (level : Level) (message : String) (values : List Json)
    (extra : Members) (traceback : Bool) : Option Record :=
  if isShowable extra then
    (fill? message values).map fun message =>
      { level := level, logger := logger, message := message
        extra := extra.filter fun (name, _) => isShown name, traceback := traceback }
  else none

/-- What a log that lets records from a level on through makes of a call. Below that level not
even the names of the further members are looked at. -/
def offer (least : Level) (logger : String) (level : Level) (message : String)
    (values : List Json) (extra : Members) (traceback : Bool) : Except Failure (Option Record) :=
  if least.admits level then
    match refusal? extra with
    | some refusal => .error refusal
    | none => .ok (make? logger level message values extra traceback)
  else .ok none

/-- The members of a record, apart from its time and the text of its traceback. -/
def members (r : Record) : Members :=
  [("level", .text r.level.name), ("logger", .text r.logger), ("message", .text r.message)] ++
    (if r.extra.isEmpty then [] else [("extra", .object r.extra)]) ++
    (if r.traceback then [("exception", .bool true)] else [])

/-- The line that shows a record, as an object. -/
def line (time : String) (r : Record) : Json :=
  .object (("timestamp", .text time) :: r.members)

end Record

end ReleaseRunner.Log
