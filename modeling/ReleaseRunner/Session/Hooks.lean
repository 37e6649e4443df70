import ReleaseRunner.Config.Model
import ReleaseRunner.Session.Log
import ReleaseRunner.Text.Lines
import ReleaseRunner.Text.Words

/-!
# Running hooks

The hooks of an event are run in order, each as a process of its own. A hook fails when its
process cannot be started, takes too long or exits with another code than nought; a failure
that the hook does not tolerate ends the run of the hooks. A command that cannot be split into
words ends it whether the hook is tolerant or not, and so does a process that fails in a way of its
own.
-/

namespace ReleaseRunner.Session

open Config Log Number

/-- What the hooks of a session are run with. -/
structure HookRunner where
  hooks : Hooks
  platform : String

/-- The platform of the machine. -/
def platform : String := "linux"

/-- What hooks are run with on a platform, which is that of the machine where none is given. An
empty text is none. -/
def HookRunner.on (hooks : Hooks) (given : Option String) : HookRunner :=
  ⟨hooks, (given.filter (!·.isEmpty)).getD Session.platform⟩

/-- The hooks of a phase. -/
def HookRunner.ofPhase (runner : HookRunner) : Phase → List Hook
  | .before => runner.hooks.before
  | .success => runner.hooks.success
  | .failure => runner.hooks.failure

/-- The hooks that are meant for an event. -/
def HookRunner.select (runner : HookRunner) (event : Event) : List Hook :=
  (runner.ofPhase event.phase).filter (·.selected event.scope runner.platform)

/-- What a hook finds in its environment: that of the runner, below that of the configuration,
below what tells it about the event. -/
def hookEnvironment (outside : List (String × String)) (hooks : Hooks) (event : Event) :
    List (String × String) :=
  Json.withMembers outside <| hooks.environment ++
    [("RELEASE_EVENT_PHASE", event.phase.name), ("RELEASE_EVENT_SCOPE", event.scope)] ++
    event.failure.toList.map fun f => ("RELEASE_FAILURE", f.text)

/-- The text of a timeout. -/
def timeoutText (timeout : Option Binary64) : String :=
  (timeout.map (·.shortest)).getD "None"

/-- Asks for a process and gives what comes of it. -/
def startProgram (start : ProcessStart) : Run Program := do
  match start.words with
  | [] => throw (.plain .missingItem "list index out of range")
  | name :: _ =>
    let w ← get
    note (.call (.process name))
    note (.process start)
    return w.programs.answer (World.processes w.journal) start

/-- Logs what a hook printed, line by line. -/
def logOutput (hook : Hook) (output : String) : Run Unit :=
  (Text.lines output).forM fun line => inform line [] [("hook", .text hook.command)]

/-- Logs what a failed hook complained about. -/
def logErrors (hook : Hook) (errors : String) : Run Unit :=
  if errors.isEmpty then return ()
  else say .debug (Text.strip errors) [] [("hook", .text hook.command)] false

/-- A hook that failed: what is said about it and the code that its process exited with. -/
structure HookFailure where
  problem : String
  exitCode : Option Int

/-- Runs the process of a hook; none if it ended well. A process that fails in a way of its own is
no failed hook. -/
def runProcess (hook : Hook) (start : ProcessStart) : Run (Option HookFailure) := do
  match ← startProgram start with
  | .timesOut =>
    return some ⟨s!"Hook timed out after {timeoutText hook.timeout}s: {hook.command}", none⟩
  | .unstartable text =>
    return some ⟨s!"Hook could not be started: {hook.command} ({text})", none⟩
  | .fails failure _ => throw failure
  | .exits code output errors => do
    if hook.verbose then logOutput hook output
    if code = 0 then return none
    logErrors hook errors
    return some ⟨s!"Hook exited with code {code}: {hook.command}", some code⟩

/-- Runs a hook. -/
def runHook (runner : HookRunner) (event : Event) (hook : Hook) : Run Unit := do
  inform "Running hook: %s" [.text hook.command] []
  match Text.words hook.command with
  | .error e => throw (.plain .value e.message)
  | .ok words =>
    let environment := hookEnvironment (← get).environment runner.hooks event
    match ← runProcess hook ⟨words, environment, hook.timeout⟩ with
    | none => return ()
    | some failure =>
      if hook.tolerant then say .warning failure.problem [] [] false
      else throw (.plain (.hook hook.command failure.exitCode) failure.problem)

/-- Runs the hooks of an event. -/
def runHooks (runner : HookRunner) (event : Event) : Run Unit := do
  if !runner.hooks.enabled then return
  let selected := runner.select event
  if selected.isEmpty then return
  inform "Executing %s hooks" [.text event.phase.name]
    [("scope", .text event.scope), ("count", .int selected.length)]
  selected.forM (runHook runner event)

end ReleaseRunner.Session
