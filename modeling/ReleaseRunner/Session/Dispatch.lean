import ReleaseRunner.Session.Roster

/-!
# Events and listeners

An event is recorded and then delivered to the listeners in the order of registration. A
failure of a listener that tolerates failures is collected; any other one ends the delivery.
The policy is read after the failure, and listeners that are registered meanwhile are called
as well.

Scripts may fire events themselves. So that every computation ends, the world limits how deep
events may be nested and how many listeners one delivery calls that were registered meanwhile;
going beyond is a failure that nobody tolerates.
-/

namespace ReleaseRunner.Session

/-- What came of a delivery: the failure that ended it, and those that were tolerated. -/
structure Delivery where
  halted : Option ListenerFailure
  tolerated : List ListenerFailure
deriving Repr, DecidableEq

/-- No listener failed. -/
def Delivery.ok (d : Delivery) : Bool :=
  d.halted.isNone && d.tolerated.isEmpty

/-- The failure to go beyond a limit. -/
def endless : Failure := .plain .endless "maximum recursion depth exceeded"

/-- Performs an action, where `fire` delivers an event and says whether no listener failed. -/
def act (fire : Event → Run Bool) : Action → Run Unit
  | .raise failure => raise failure
  | .log level message values extra => say level message values extra false
  | .trace failure => trace failure
  | .step name => setStep (some name)
  | .reset => setStep none
  | .closeLog => closeLog
  | .register name tolerant properties script => enlist ⟨name, tolerant, properties, script⟩
  | .enrol name => enrol name
  | .cleanup => cleanup
  | .policy name tolerant => setPolicy name tolerant
  | .dryRun value => modify fun w => { w with dryRun := value }
  | .filter filter name => modify fun w => { w with filters := w.filters.add filter name }
  | .fire event => do
    let ok ← fire event
    note (.call (.fired ok))

/-- Calls the listener at a place among those made, under a key. -/
def callListener (fire : Event → Run Bool) (key : String) (id : Nat) (listener : Listener) :
    Run Unit := do
  note (.call (.listener id key listener.name))
  (listener.actions key).forM (act fire)

/-- Calls the listeners from a place in the order of registration on. -/
def deliverFrom (fire : Event → Run Bool) (key : String) :
    Nat → Nat → List ListenerFailure → Run Delivery
  | 0, _, _ => raise endless
  | calls + 1, place, tolerated => do
    match (← get).roster.at? place with
    | none => return ⟨none, tolerated⟩
    | some (id, listener) =>
      match ← attempt (callListener fire key id listener) with
      | .ok () => deliverFrom fire key calls (place + 1) tolerated
      | .error cause =>
        let tolerant := (((← get).roster.at? place).map (·.2.tolerant)).getD false
        let failure : ListenerFailure := ⟨listener.name, tolerant, cause⟩
        if tolerant then deliverFrom fire key calls (place + 1) (tolerated ++ [failure])
        else return ⟨some failure, tolerated⟩

/-- Delivers to the registered listeners. A key may have its result forced. -/
def deliver (fire : Event → Run Bool) (key : String) : Run Delivery := do
  let w ← get
  match w.forced.lookup key with
  | some cause => return ⟨some ⟨"forced", false, cause⟩, []⟩
  | none =>
    if w.roster.closed then return ⟨none, []⟩
    else deliverFrom fire key (w.roster.order.length + w.limits.calls + 1) 0 []

/-- Records an event with the time. -/
def recordEvent (members : Members) : Run Unit := do
  let time ← now
  note (.event (("timestamp", .text time.text) :: members))

/-- Records an event and delivers it, with so many levels of events within it. -/
def fireWithin : Nat → Event → Run Delivery
  | 0, _ => raise endless
  | depth + 1, event => do
    recordEvent event.members
    deliver (fun event => return (← fireWithin depth event).ok) event.key

/-- Records an event and delivers it. -/
def fire (event : Event) : Run Delivery := do
  fireWithin (← get).limits.nesting event

/-- Performs the actions of a script. -/
def perform (actions : List Action) : Run Unit :=
  actions.forM (act fun event => return (← fire event).ok)

/-- Records and delivers the start of the session. -/
def fireStart : Run Delivery := do
  recordEvent [("scope", .text sessionScope), ("phase", .text "start")]
  deliver (fun event => return (← fire event).ok) "session_start"

/-- Records and delivers the end of the session. -/
def fireEnd : Run Delivery := do
  recordEvent [("scope", .text sessionScope), ("phase", .text "end")]
  deliver (fun event => return (← fire event).ok) "session_end"

end ReleaseRunner.Session
