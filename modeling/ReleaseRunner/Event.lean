import ReleaseRunner.Failure
import ReleaseRunner.Json.Value

/-!
# Lifecycle events

A session and each of its steps are announced before they run and once they have succeeded or
failed. The scope of an event is `sessionScope` or the name of a step.
-/

namespace ReleaseRunner

/-- The scope of events about the session as a whole. -/
def sessionScope : String := "session"

/-- When an event is fired. -/
inductive Phase where
  | before
  | success
  | failure
deriving Repr, DecidableEq

namespace Phase

/-- The phases in the order of a run. -/
def all : List Phase := [before, success, failure]

/-- The name of a phase. -/
def name : Phase → String
  | before => "before"
  | success => "success"
  | failure => "failure"

/-- The phase of a name. -/
def ofName? (s : String) : Option Phase :=
  all.find? (·.name == s)

end Phase

/-- An event of a run. -/
structure Event where
  scope : String
  phase : Phase
  failure : Option Failure := none
deriving Repr, DecidableEq

namespace Event

/-- The event that announces a scope. -/
def before (scope : String) : Event := ⟨scope, .before, none⟩

/-- The event that reports the success of a scope. -/
def success (scope : String) : Event := ⟨scope, .success, none⟩

/-- The event that reports the failure of a scope. -/
def failed (scope : String) (cause : Failure) : Event := ⟨scope, .failure, some cause⟩

/-- The members of an event in the report. -/
def members (event : Event) : Members :=
  [("scope", .text event.scope), ("phase", .text event.phase.name)] ++
    (event.failure.toList.map fun f => ("failure", .text f.titled))

/-- The name under which listeners wait for an event. -/
def key (event : Event) : String :=
  s!"{event.scope}:{event.phase.name}"

end Event

end ReleaseRunner
