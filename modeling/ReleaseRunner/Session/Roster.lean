import ReleaseRunner.Session.Log

/-!
# The listeners of a run

Listeners are registered until they are closed, and closing goes through the registrations once, in
their order. A listener that was registered more than once is closed as often. One that fails to
close is only logged, under its name, which can always be read; an abort ends the closing where it
is raised.
-/

namespace ReleaseRunner.Session

/-- The logger of the roster. -/
def rosterLogger : String := "extensions.manager"

/-- Makes a listener and registers it, unless the listeners were closed before. -/
def enlist (listener : Listener) : Run Unit := do
  if (← get).roster.closed then
    modify fun w => { w with roster := w.roster.make listener }
    throw (.release "Extension manager has already been cleaned up")
  modify fun w => { w with roster := w.roster.enlist listener }

/-- Registers the listener that was made last under a name once more, unless the listeners were
closed before. -/
def enrol (name : String) : Run Unit := do
  if (← get).roster.closed then
    throw (.release "Extension manager has already been cleaned up")
  modify fun w => { w with roster := w.roster.enrol name }

/-- Changes the policy of the listener that was made last under a name. -/
def setPolicy (name : String) (tolerant : Bool) : Run Unit :=
  modify fun w => { w with roster := w.roster.setPolicy name tolerant }

/-- An action of a listener that is being closed. There is no session any more for it to act
on, so all that it can do is to fail or to change a policy. -/
def closingAction : Action → Run Unit
  | .raise failure => raise failure
  | .policy name tolerant => setPolicy name tolerant
  | _ => throw (.plain .missingAttribute "there is no context to act on")

/-- Closes a listener. -/
def closeListener (id : Nat) : Run Unit := do
  match (← get).roster.made[id]? with
  | some listener =>
    note (.call (.close id listener.name))
    (listener.actions "close").forM closingAction
  | none => return ()

/-- Closes a listener and logs its failure. -/
def closeLogged (id : Nat) : Run Unit := do
  match ← attempt (closeListener id) with
  | .ok () => return ()
  | .error _ =>
    let name := ((← get).roster.made[id]?.map (·.name)).getD ""
    sayElsewhere rosterLogger .warning "Listener failed to close" [("listener", .text name)] true

/-- Closes the listener of every registration, unless they were closed before. -/
def cleanup : Run Unit := do
  if (← get).roster.closed then return
  let order := (← get).roster.order
  modify fun w => { w with roster := w.roster.close }
  order.forM closeLogged

end ReleaseRunner.Session
