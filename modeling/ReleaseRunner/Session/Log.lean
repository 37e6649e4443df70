import ReleaseRunner.Session.World

/-!
# The log of a session

Records of the session's log carry the name of the running step, unless the caller gives one,
and go to the trace file while it is open. Once the log was opened it lets all records from `debug`
on through; before that it holds back what lies below the level of the console. Other parts of the
runner have logs of their own, which know neither steps nor the trace file.
-/

namespace ReleaseRunner.Session

open Files Log

/-- The logger of the session. -/
def sessionLogger : String := "release_orchestrator.session"

/-- The further members of a record, with the step if there is one and none was given. -/
def SessionLog.tagged (log : SessionLog) (extra : Members) : Members :=
  match log.step with
  | some step =>
    if extra.any (·.1 == "step") then extra else extra ++ [("step", .text step)]
  | none => extra

/-- The level from which on the session's log lets records through: its own, or else that of the
console, which is `warning` until it is given one. -/
def World.level (w : World) : Level :=
  w.threshold.getD (w.console.getD .warning)

/-- How far a record of the session's log gets. -/
def World.reach (w : World) (level : Level) : Reach :=
  if w.level.admits level then if w.log.trace.isSome then .traced else .made else .heldBack

/-- Logs in the session's log. Of a record that is held back, not even the names of the further
members are looked at. -/
def say (level : Level) (message : String) (values : List Json) (extra : Members)
    (traceback : Bool) : Run Unit := do
  let w ← get
  let extra := w.log.tagged extra
  match Record.refusal? extra with
  | some refusal => if w.level.admits level then throw refusal
  | none =>
    match Record.make? sessionLogger level message values extra traceback with
    | some record => note (.record record (w.reach level))
    | none => return ()

/-- Logs a text as information. -/
def inform (message : String) (values : List Json) (extra : Members) : Run Unit :=
  say .info message values extra false

/-- Logs a failure with its traceback. -/
def trace (failure : Failure) : Run Unit :=
  say .debug "%s: %s" [.text failure.kind.name, .text failure.text] [] true

/-- Logs in the log of another part of the runner. -/
def sayElsewhere (logger : String) (level : Level) (message : String) (extra : Members)
    (traceback : Bool) : Run Unit :=
  match Record.make? ("release_orchestrator." ++ logger) level message [] extra traceback with
  | some record => note (.record record .made)
  | none => return ()

/-- Tags the records from here on. -/
def setStep (step : Option String) : Run Unit :=
  modify fun w => { w with log := { w.log with step := step } }

/-- Opens the log with its trace file, which starts empty, for records of all levels. -/
def openLog (file : Path) : Run Unit := do
  let tree ← ((← get).tree.makeFolder file.parent : Except Failure Tree)
  let tree ← (tree.writeText file "" : Except Failure Tree)
  modify fun w =>
    { w with tree := tree, log := { w.log with trace := some file }, threshold := some .debug }

/-- Closes the log: its records reach the trace file no more. -/
def closeLog : Run Unit :=
  modify fun w => { w with log := { w.log with closed := true, trace := none } }

end ReleaseRunner.Session
