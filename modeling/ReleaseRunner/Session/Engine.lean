import ReleaseRunner.Duration
import ReleaseRunner.Session.Context
import ReleaseRunner.Session.Hooks
import ReleaseRunner.Session.Registry

/-!
# Running a workflow

A run goes through the hooks in front of the session, the start of the session, the items with
the events around each of them, the end of the session, the report, the hooks that belong to
the outcome, and the outcome itself. Failures on the way are kept by their source, and one of
them decides the run. Whatever happens, the listeners are closed and then the log.

Each act of the runner is noted in the journal before it is done.
-/

namespace ReleaseRunner.Session

open Log Number

/-- Notes an act of the runner. -/
def mark (act : Act) : Run Unit := note (.act act)

/-- Logs that a listener failed, and its failure. -/
def logListenerFailure (failure : ListenerFailure) : Run Unit := do
  say .error "Listener %s failed" [.text failure.listener]
    [("continue_on_error", .bool failure.tolerant)] false
  trace failure.cause

/-- Logs the failures of a delivery, and gives the one that halts the run. -/
def haltOf (delivery : Delivery) : Run (Option Failure) := do
  (delivery.tolerated ++ delivery.halted.toList).forM logListenerFailure
  return delivery.halted.map (·.cause)

/-- Runs hooks; their failure is logged and given. -/
def attemptHooks (runner : HookRunner) (event : Event) : Run (Option Failure) := do
  match ← attempt (runHooks runner event) with
  | .ok () => return none
  | .error failure =>
    say .error "Unexpected error while running hooks" [] [] false
    trace failure
    return some failure

/-! ## The items -/

/-- Fires the event in front of a step. -/
def fireBefore (step : String) : Run (Option Failure) := do
  mark (.before step)
  haltOf (← fire (.before step))

/-- Fires the event of a step that succeeded. -/
def fireSucceeded (step : String) : Run (Option Failure) := do
  mark (.succeeded step)
  haltOf (← fire (.success step))

/-- Fires the event of a step that failed. Gives what halts the run, and otherwise whether the
run goes on: it does where a tolerant listener failed over the event. -/
def fireFailed (step : String) (cause : Failure) : Run (Option Failure × Bool) := do
  mark (.failed step)
  let delivery ← fire (.failed step cause)
  return (← haltOf delivery, !delivery.tolerated.isEmpty)

/-- Runs items in order, with the failures so far. -/
def runItems : List Item → Setbacks → Run Setbacks
  | [], setbacks => return setbacks
  | item :: items, setbacks => do
    let step := item.stage.name
    setStep (some step)
    match ← fireBefore step with
    | some halt => return { setbacks with loopListener := some halt }
    | none =>
      mark (.invoke step)
      match ← attempt item.invoke with
      | .ok () =>
        match ← fireSucceeded step with
        | some halt => return { setbacks with loopListener := some halt }
        | none => runItems items setbacks
      | .error failure =>
        let setbacks := { setbacks with step := some failure }
        match ← fireFailed step failure with
        | (some halt, _) => return { setbacks with loopListener := some halt }
        | (none, true) => runItems items setbacks
        | (none, false) => return setbacks

/-! ## The session -/

/-- Runs the hooks in front of the session and starts it. -/
def startSession (runner : HookRunner) : Run Setbacks := do
  mark .beforeHooks
  match ← attemptHooks runner (.before sessionScope) with
  | some failure => return { beforeHook := some failure }
  | none =>
    mark .sessionStart
    return { startListener := ← haltOf (← fireStart) }

/-- Runs the items and ends the session. -/
def runSteps (items : List Item) (setbacks : Setbacks) : Run Setbacks := do
  let setbacks ← ensuring (runItems items setbacks) (setStep none)
  mark .sessionEnd
  return { setbacks with endListener := ← haltOf (← fireEnd) }

/-- The failure that a cause leads to: itself, or an unexpected one where it is an abort that
somebody reported. -/
def propagated (cause : Failure) : Failure :=
  if cause.isAbort then .unexpected cause else cause

/-- The event for the hooks that close a session. -/
def closingEvent (phase : Phase) (outcome : Outcome) : Event :=
  match phase, outcome.cause? with
  | .failure, some cause => .failed sessionScope cause
  | phase, _ => ⟨sessionScope, phase, none⟩

/-- Runs the hooks that belong to an outcome. -/
def runClosingHooks (runner : HookRunner) (outcome : Outcome) : Run Unit :=
  match outcome.closingHooks with
  | none => pure ()
  | some phase => do
    mark (.closingHooks phase)
    discard (attemptHooks runner (closingEvent phase outcome))

/-- Logs an outcome with the time it took to get there, and fails with its cause. -/
def conclude (outcome : Outcome) (duration : String) : Run Unit :=
  match outcome with
  | .success => inform "Release succeeded in %s" [.text duration] []
  | .failure _ cause => do
    say .error "Release failed after %s" [.text duration] [("outcome", .text outcome.name)] false
    trace cause
    throw (propagated cause)

/-- Runs the hooks that belong to the outcome, logs it, and fails with its cause. -/
def closeUp (runner : HookRunner) (outcome : Outcome) (duration : String) : Run Unit := do
  runClosingHooks runner outcome
  conclude outcome duration

/-- The text of the time between two instants. -/
def durationText (start stop : Instant) : String :=
  match Duration.ofBinary (start.secondsTo stop) with
  | .ok text => text
  | .error message => message

/-- Logs what the session is run with. -/
def announce : Run Unit := do
  inform "dry-run set to %s" [.bool (← get).dryRun] []
  (← get).filters.active.forM fun (name, values) =>
    inform "%s: %s"
      [.text (name.map fun c => if c == '_' then ' ' else c), .text (Text.joined ", " values)] []

/-- Goes from the hooks in front of the session to its end, and gives what failed on the way. -/
def drive (runner : HookRunner) (items : List Item) : Run Setbacks := do
  let setbacks ← startSession runner
  if setbacks.abortedBeforeSteps then return setbacks else runSteps items setbacks

/-- Stamps the end of the session. -/
def stampEnd : Run Instant := do
  mark .stamp
  let stop ← now
  modify fun w => { w with ended := true }
  return stop

/-- Writes the report, and finds the outcome. -/
def reportOutcome (setup : Setup) (setbacks : Setbacks) : Run Outcome := do
  setStep none
  mark .report
  report setup
  let outcome := setbacks.resolve
  modify fun w => { w with outcome := some outcome }
  return outcome

/-- Runs a session from its start to its outcome. -/
def runSession (setup : Setup) (runner : HookRunner) (items : List Item) : Run Unit := do
  let start ← now
  modify fun w => { w with ended := false, outcome := none }
  announce
  let setbacks ← drive runner items
  let stop ← stampEnd
  let outcome ← reportOutcome setup setbacks
  closeUp runner outcome (durationText start stop)

/-- Runs a workflow, and closes the listeners and the log after it in any case. -/
def execute (setup : Setup) (runner : HookRunner) (items : List Item) : Run Unit :=
  ensuring
    (ensuring (runSession setup runner items) (do mark .cleanup; cleanup))
    (do mark .closeLog; closeLog)

/-- A workflow of a valid configuration. -/
def makeWorkflow (setup : Setup) (items : List Item) : Run (List Item) := do
  validateOnce setup
  return items

end ReleaseRunner.Session
