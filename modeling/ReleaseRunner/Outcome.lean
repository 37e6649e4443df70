import ReleaseRunner.Event

/-!
# The outcome of a session

Failures come from five independent sources, and each source has a slot of its own. `resolve`
picks the one that decides the session by a fixed precedence, so it does not matter which
failure came first.
-/

namespace ReleaseRunner

/-- The sources of failure. -/
inductive Source where
  | beforeHook
  | startListener
  | step
  | endListener
  | loopListener
deriving Repr, DecidableEq

/-- The name of a source, as outcomes are reported. -/
def Source.name : Source → String
  | .beforeHook => "hook_before_session"
  | .startListener => "session_start_listener"
  | .step => "step"
  | .endListener => "session_end_listener"
  | .loopListener => "loop_listener"

/-- The failures of one session, by source. -/
structure Setbacks where
  beforeHook : Option Failure := none
  startListener : Option Failure := none
  step : Option Failure := none
  endListener : Option Failure := none
  loopListener : Option Failure := none
deriving Repr, DecidableEq

/-- The session ended before any step could run. -/
def Setbacks.abortedBeforeSteps (s : Setbacks) : Bool :=
  s.beforeHook.isSome || s.startListener.isSome

/-- How a session ended. -/
inductive Outcome where
  | success
  | failure (source : Source) (cause : Failure)
deriving Repr, DecidableEq

namespace Outcome

/-- The name of an outcome. -/
def name : Outcome → String
  | success => "success"
  | failure source _ => source.name

/-- The failure that decided the session. -/
def cause? : Outcome → Option Failure
  | success => none
  | failure _ cause => some cause

/-- The session failed. -/
def failed (outcome : Outcome) : Bool :=
  outcome != success

/-- The hooks that close the session: those of success, and those of failure where steps had
their chance to run and no listener stopped them. -/
def closingHooks : Outcome → Option Phase
  | success => some .success
  | failure .step _ => some .failure
  | failure .endListener _ => some .failure
  | failure .beforeHook _ => none
  | failure .startListener _ => none
  | failure .loopListener _ => none

end Outcome

/-- The outcome of a session with the given failures: a hook in front of the session decides
first, then a listener at its end, then a step, then a listener at its start or between steps. -/
def Setbacks.resolve (s : Setbacks) : Outcome :=
  match s.beforeHook, s.endListener, s.step, s.startListener, s.loopListener with
  | some f, _, _, _, _ => .failure .beforeHook f
  | none, some f, _, _, _ => .failure .endListener f
  | none, none, some f, _, _ => .failure .step f
  | none, none, none, some f, _ => .failure .startListener f
  | none, none, none, none, some f => .failure .loopListener f
  | none, none, none, none, none => .success

end ReleaseRunner
