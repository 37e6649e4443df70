import ReleaseRunner.Config.Validation
import ReleaseRunner.Json.Writer
import ReleaseRunner.Session.Log

/-!
# The context of a session

What a session is set up with, and what is done once for it: the validation of the
configuration and the report of all events.
-/

namespace ReleaseRunner.Session

open Config Log

/-- What a session is set up with. -/
structure Setup where
  model : Model
  settings : Settings

/-- The logger of the context. -/
def contextLogger : String := "context"

/-- Opens a context: its log is opened, and its filters and its dry-run flag are set. -/
def openContext (setup : Setup) (filters : Filters) (dryRun : Option Bool) : Run Unit := do
  openLog setup.settings.traceFile
  modify fun w =>
    { w with filters := filters, dryRun := dryRun.getD setup.settings.dryRun }

/-- Validates the configuration, unless it was found valid before. -/
def validateOnce (setup : Setup) : Run Unit := do
  if (← get).validated then return
  inform "Validating configuration" [] []
  (setup.model.validate : Except Failure Unit)
  modify fun w => { w with validated := true }

/-- The report of a session. -/
def reportText (project : Project) (w : World) : String :=
  let report : Members :=
    [("project", .object [("name", .text project.name), ("version", .text project.version)]),
      ("dry_run", .bool w.dryRun),
      ("filters", .object (w.filters.active.map fun (name, values) =>
        (name, .array (values.map .text)))),
      ("events", .array ((World.events w.journal).map .object))]
  (Json.object report).pretty ++ "\n"

/-- Writes the report of the session. -/
def report (setup : Setup) : Run Unit := do
  let file := setup.settings.reportFile
  let tree ← ((← get).tree.makeFolder file.parent : Except Failure _)
  let tree ← (tree.writeText file (reportText setup.model.project (← get)) : Except Failure _)
  modify fun w => { w with tree := tree }
  sayElsewhere contextLogger .debug "Report written" [("path", .text file.text)] false

end ReleaseRunner.Session
