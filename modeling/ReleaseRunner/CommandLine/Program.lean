import ReleaseRunner.CommandLine.Arguments
import ReleaseRunner.Session.Engine
import ReleaseRunner.Session.Extensions

/-!
# The program

The program reads its settings and the configuration, and then validates or runs a workflow.
Its exit code is nought when all went well, two when the settings or the configuration cannot
be read, and one for every other failure. What is wrong is logged, and printed as errors as
far as a user can do something about it.
-/

namespace ReleaseRunner.CommandLine

open Config Files Log Session

/-- How the program ends: with a code, or by leaving before it did anything. -/
inductive Ending where
  | returned (code : Nat)
  | left (code : Nat)
deriving Repr, DecidableEq

/-- The logger of the program. -/
def programLogger : String := "main"

/-- How many faults a document has, as it is printed. -/
def faultCount (document : String) (faults : List Fault) : String :=
  let n := faults.length
  let noun := if n = 1 then "error" else "errors"
  s!"{n} validation {noun} for {document}"

/-- What is printed of a statement in the environment file that cannot be read. -/
def malformedLine (line : Nat) : String :=
  s!"python-dotenv could not parse statement starting at line {line}"

/-- Ends the reading of the command line. -/
def leave : Stop → Run Ending
  | .help => do
    note (.line s!"usage: {programName} [-h] [--version] command ...")
    return .left 0
  | .version => do
    note (.line versionText)
    return .left 0
  | .refused program message => do
    note (.errorLine s!"{program}: error: {message}")
    return .left 2

/-- Reads the settings; none if they have faults, which are printed. -/
def readSettings : Run (Option Settings) := do
  let w ← get
  let file ← (Settings.readEnvironmentFile w.environment w.tree : Except Failure _)
  file.malformedLines.forM fun line => note (.errorLine (malformedLine line))
  match Settings.read w.environment w.tree with
  | .ok settings => return some settings
  | .error failure =>
    match failure.kind with
    | .malformed document faults =>
      note (.errorLine "Configuration error (check your .env):")
      note (.errorLine (faultCount document faults))
      return none
    | _ => throw failure

/-- Reads the configuration; none if there is no file or it has faults. -/
def readModel (file : Path) : Run (Option Model) := do
  let path : Members := [("path", .text file.text)]
  match Model.load (← get).tree file with
  | .ok model => return some model
  | .error failure =>
    match failure.kind with
    | .fileMissing =>
      sayElsewhere programLogger .error "Release configuration not found" path false
      return none
    | .malformed document faults =>
      sayElsewhere programLogger .error "Release configuration is malformed" path false
      note (.errorLine (faultCount document faults))
      return none
    | _ => throw failure

/-- A computation after whose failure the log of the session is closed. -/
def closingLogOnFailure {α : Type} (x : Run α) : Run α := do
  match ← attempt x with
  | .ok a => return a
  | .error failure =>
    closeLog
    throw failure

/-- Validates the configuration. -/
def validate (setup : Setup) (file : Path) : Run Unit := do
  (setup.model.validate : Except Failure Unit)
  note (.line s!"Configuration is valid: {file.text}")

/-- Runs the workflow of the command. -/
def runWorkflow (setup : Setup) (a : Arguments) : Run Unit := do
  let registry ← installedRegistry
  loadExtensions setup.model.extensions
  ensuring
    (do
      openContext setup a.filters (if a.dryRun then some true else none)
      let items ← closingLogOnFailure do
        let items ← (registry.plan (underscored a.command) : Except Failure _)
        makeWorkflow setup items
      execute setup (.on setup.model.hooks none) items)
    cleanup

/-- The exit code of a computation, whose failure is logged. -/
def guarded (x : Run Unit) : Run Nat := do
  match ← attempt x with
  | .ok () => return 0
  | .error failure =>
    if failure.kind.isRelease then
      sayElsewhere programLogger .error failure.text [] false
      note (.errorLine failure.text)
    else sayElsewhere programLogger .error "Release failed" [] true
    return 1

/-- Does what the command line asks for. -/
def runCommand (a : Arguments) : Run Nat := do
  let some settings ← readSettings | return 2
  modify fun w => { w with console := some settings.logLevel }
  let settings := { settings with outputFolder := a.outputFolder.getD settings.outputFolder }
  let file := a.config.getD settings.configFile
  let some model ← readModel file | return 2
  let setup : Setup := ⟨model, settings⟩
  guarded <|
    if a.command == validateCommand then validate setup file else runWorkflow setup a

/-- Runs the program. -/
def run (words : List String) : Run Ending := do
  match Arguments.read words with
  | .error stop => leave stop
  | .ok a => return .returned (← runCommand a)

end ReleaseRunner.CommandLine
