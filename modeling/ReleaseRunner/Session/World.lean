import ReleaseRunner.Clock
import ReleaseRunner.Config.Filters
import ReleaseRunner.Config.Settings
import ReleaseRunner.Log.Record
import ReleaseRunner.Outcome
import ReleaseRunner.Stage

/-!
# The world of a session

What plugins do is given by scripts, lists of actions that are performed one after the other up to
the first that fails. A script takes no decisions: it catches no failure, not even its own, it does
not look at the configuration or the settings, and what came of an event that it fires is noted but
not given to it. It does not hold on to the session, so when its listener is closed it can do no
more than fail or change a policy. The name and the policy of a listener are plain data, so telling
of a listener that failed does not fail itself.

All that a session reads or changes is in one `World`, and all that can be observed of it is in the
world's journal, in the order in which it happened: calls of plugins, what they raise, log records,
processes that are asked for, recorded events, lines printed, and the acts of the runner itself.

A computation `Run` changes the world whether it fails or not. `attempt` makes a failure a
value, except an abort, which only ends with the run; `ensuring` does something last in any
case.
-/

namespace ReleaseRunner.Session

open Config Files Log Number

/-! ## Scripts -/

/-- What a plugin does in one of its calls. -/
inductive Action where
  | raise (failure : Failure)
  | log (level : Level) (message : String) (values : List Json) (extra : Members)
  | trace (failure : Failure)
  | step (name : String)
  | reset
  | closeLog
  | register (name : String) (tolerant : Bool) (properties : Members)
      (script : List (String × List Action))
  | enrol (listener : String)
  | cleanup
  | policy (listener : String) (tolerant : Bool)
  | dryRun (value : Bool)
  | filter (filter : Filter) (name : String)
  | fire (event : Event)

/-- What a listener does, by the key of the event. -/
abbrev Script := List (String × List Action)

/-- A listener. Whether it tolerates its own failures may change while it is in use. -/
structure Listener where
  name : String
  tolerant : Bool
  properties : Members
  script : Script

/-- What a listener does under a key; a star stands for all keys that are not listed. -/
def Listener.actions (listener : Listener) (key : String) : List Action :=
  match Json.lookup listener.script key with
  | some actions => actions
  | none => (Json.lookup listener.script "*").getD []

/-- What performs a stage. -/
structure Handler where
  label : String
  actions : List Action

/-- What comes of asking for a process: it ends, it takes too long, its program cannot be started,
or it fails in a way of its own. So it does where a word or a variable has a form that no process
can be given, where the timeout is out of range, and where what the process printed is no text. -/
inductive Program where
  | exits (code : Int) (output errors : String)
  | timesOut
  | unstartable (text : String)
  | fails (failure : Failure) (ordinary : failure.isAbort = false)
deriving Repr, DecidableEq

/-- What an extension makes of its properties: a listener, one that is rigid and fails where its
policy is set, something that is no listener, or nothing because it fails. -/
inductive Product where
  | listener (name : String) (tolerant : Bool) (script : Script)
  | rigid (name : String) (tolerant : Bool) (script : Script) (failure : Failure)
  | stranger
  | failure (failure : Failure)

/-- An installed extension, which cannot be loaded or makes something of its properties. -/
inductive Extension where
  | unloadable (failure : Failure)
  | factory (make : Members → Product)

namespace Extension

/-- The extension is in no module that there is. -/
def broken : Extension := .unloadable (.plain .missingPlugin "No module named 'plugin'")

/-- The extension makes the same listener of all properties. -/
def listener (name : String) (tolerant : Bool) (script : Script) : Extension :=
  .factory fun _ => .listener name tolerant script

/-- The extension makes something that is no listener. -/
def stranger : Extension := .factory fun _ => .stranger

/-- The extension refuses all properties. -/
def refusing : Extension := .factory fun _ => .failure (.plain .value "bad properties")

end Extension

/-- An installed performer of a stage, which cannot be loaded or performs actions. -/
inductive StepPlugin where
  | unloadable (failure : Failure)
  | performer (actions : List Action)

/-- The performer is in no module that there is. -/
def StepPlugin.broken : StepPlugin :=
  .unloadable (.plain .missingPlugin "No module named 'plugin'")

/-! ## The journal -/

/-- An act of the runner itself. -/
inductive Act where
  | beforeHooks
  | sessionStart
  | before (step : String)
  | invoke (step : String)
  | failed (step : String)
  | succeeded (step : String)
  | sessionEnd
  | stamp
  | report
  | closingHooks (phase : Phase)
  | cleanup
  | closeLog
deriving Repr, DecidableEq

/-- A call of a plugin or a program. Listeners have names that others may have as well, so a
call of one also tells its place among the listeners that were made. -/
inductive Call where
  | listener (id : Nat) (key name : String)
  | close (id : Nat) (name : String)
  | invoke (label : String)
  | process (name : String)
  | fired (ok : Bool)
deriving Repr, DecidableEq

/-- A call as it is reported. -/
def Call.text : Call → String
  | listener _ key name => s!"{key}@{name}"
  | close _ name => s!"close@{name}"
  | invoke label => s!"invoke:{label}"
  | process name => s!"process:{name}"
  | fired ok => if ok then "fired:true" else "fired:false"

/-- A process that the system is asked for, whether it can be started or not. -/
structure ProcessStart where
  words : List String
  environment : List (String × String)
  timeout : Option Binary64
deriving Repr, DecidableEq

/-- How far a record gets: its log holds it back, so that nobody sees it, or it is made, or it goes
to the trace file as well. -/
inductive Reach where
  | heldBack
  | made
  | traced
deriving Repr, DecidableEq

/-- What can be observed. A record is noted whenever a log is told something, with how far it gets.
That an extension was asked to make a listener is not among the calls, which are those of a
session. -/
inductive Entry where
  | call (call : Call)
  | factory (extension : String) (properties : Members)
  | raised (failure : Failure)
  | record (record : Record) (reach : Reach)
  | process (start : ProcessStart)
  | event (members : Members)
  | line (text : String)
  | errorLine (text : String)
  | act (act : Act)

/-! ## The world -/

/-- The listeners of a run: all that were made to be registered, the places of the registered ones
among them in the order of registration, and whether they were closed. A listener that is registered
once more stands in the order once more. -/
structure Roster where
  made : List Listener
  order : List Nat
  closed : Bool
  order_lt : ∀ id ∈ order, id < made.length

/-- The log of the session: the step its records are tagged with, whether it was closed, and
the trace file while it is open. -/
structure SessionLog where
  step : Option String
  closed : Bool
  trace : Option Path
deriving Repr, DecidableEq

/-- The programs that can be started: what comes of asking for a process, which may depend on all
that were asked for before it. -/
structure Programs where
  answer : List ProcessStart → ProcessStart → Program

/-- Programs that answer alike whenever they are started, by name. -/
def Programs.named (program : String → Program) : Programs where
  answer _ start := match start.words with
    | name :: _ => program name
    | [] => .unstartable ""

instance : Coe (String → Program) Programs := ⟨.named⟩

/-- What is wrong with a request that no system takes, if something is: a variable whose name holds
an equals sign, or a null character in a word or a variable. -/
def ProcessStart.flaw? (start : ProcessStart) : Option String :=
  let texts := start.words ++ start.environment.flatMap fun (name, value) => [name, value]
  if start.environment.any (·.1.toList.contains '=') then some "illegal environment variable name"
  else if texts.any (·.toList.contains (Char.ofNat 0)) then some "embedded null byte"
  else none

/-- The programs of a machine, which takes no request with a flaw. -/
def Programs.installed (program : String → Program) : Programs where
  answer past start := match start.flaw? with
    | some flaw => .fails (.plain .value flaw) rfl
    | none => (Programs.named program).answer past start

/-- How much a session may do before it counts as endless: how deep events may be nested, and
how many listeners one delivery may call that were registered only after it began. -/
structure Limits where
  nesting : Nat := 100
  calls : Nat := 5000
deriving Repr, DecidableEq

/-- All that a session reads and changes. The console shows no records before it has a level. The
threshold is the level that the session's log has of its own, which outlasts the log. -/
structure World where
  clock : Clock
  tree : Tree
  environment : List (String × String)
  programs : Programs
  extensions : List (String × Extension)
  steps : List (String × StepPlugin)
  forced : List (String × Failure)
  roster : Roster
  log : SessionLog
  console : Option Level
  dryRun : Bool
  filters : Filters
  validated : Bool
  ended : Bool
  outcome : Option Outcome
  journal : List Entry
  limits : Limits := {}
  threshold : Option Level := none

/-- A computation in the world. -/
abbrev Run := ExceptT Failure (StateM World)

namespace Roster

/-- No listener was made. -/
def empty : Roster := ⟨[], [], false, by simp⟩

/-- The registered listeners, none after they were closed. -/
def registered (r : Roster) : List Listener :=
  if r.closed then [] else r.order.filterMap (r.made[·]?)

/-- The listener at a place in the order of registration, with its place among those made. -/
def at? (r : Roster) (place : Nat) : Option (Nat × Listener) :=
  r.order[place]?.bind fun id => r.made[id]?.map (id, ·)

/-- The roster with a further listener, which is not registered. -/
def make (r : Roster) (listener : Listener) : Roster :=
  { r with
    made := r.made ++ [listener]
    order_lt := fun id h => by
      have := r.order_lt id h
      simp only [List.length_append]
      omega }

/-- The roster with a further listener, which is registered last. -/
def enlist (r : Roster) (listener : Listener) : Roster :=
  { r with
    made := r.made ++ [listener]
    order := r.order ++ [r.made.length]
    order_lt := fun id h => by
      simp only [List.mem_append, List.mem_singleton] at h
      simp only [List.length_append, List.length_singleton]
      rcases h with h | rfl
      · have := r.order_lt id h
        omega
      · omega }

/-- The place of the listener that was made last under a name. -/
def lastNamed? (r : Roster) (name : String) : Option Nat :=
  (List.range r.made.length).reverse.find? fun id => (r.made[id]?).any (·.name == name)

/-- The roster in which the last listener of a name is registered once more. -/
def enrol (r : Roster) (name : String) : Roster :=
  { r with
    order := r.order ++ (r.lastNamed? name).toList
    order_lt := fun id h => by
      rcases List.mem_append.mp h with h | h
      · exact r.order_lt id h
      · have hmem := List.mem_of_find?_eq_some (Option.mem_toList.mp h)
        exact List.mem_range.mp (List.mem_reverse.mp hmem) }

/-- The roster after its listeners were closed. -/
def close (r : Roster) : Roster := { r with closed := true }

/-- The roster with the policy of the last listener of a name changed. -/
def setPolicy (r : Roster) (name : String) (tolerant : Bool) : Roster :=
  match r.lastNamed? name with
  | some id =>
    { r with
      made := r.made.modify id ({ · with tolerant := tolerant })
      order_lt := fun id h => by
        rw [List.length_modify]
        exact r.order_lt id h }
  | none => r

end Roster

namespace World

/-- The calls among entries, as they are reported. -/
def calls (entries : List Entry) : List String :=
  entries.filterMap fun
    | .call call => some call.text
    | _ => none

/-- The records among entries, whether they are seen or not. -/
def records (entries : List Entry) : List Record :=
  entries.filterMap fun
    | .record record _ => some record
    | _ => none

/-- The messages that went to the trace file. -/
def traced (entries : List Entry) : List String :=
  entries.filterMap fun
    | .record record .traced => some record.message
    | _ => none

/-- The processes among entries. -/
def processes (entries : List Entry) : List ProcessStart :=
  entries.filterMap fun
    | .process start => some start
    | _ => none

/-- The recorded events among entries. -/
def events (entries : List Entry) : List Members :=
  entries.filterMap fun
    | .event members => some members
    | _ => none

/-- What is printed: lines, and the records that the console shows. -/
def printed (console : Option Level) (entries : List Entry) : List (String ⊕ Record) :=
  entries.filterMap fun
    | .line text => some (.inl text)
    | .record record reach =>
      if reach ≠ .heldBack && console.any (·.admits record.level) then some (.inr record) else none
    | _ => none

/-- The lines that are printed as errors. -/
def errorLines (entries : List Entry) : List String :=
  entries.filterMap fun
    | .errorLine text => some text
    | _ => none

/-- The acts of the runner among entries. -/
def acts (entries : List Entry) : List Act :=
  entries.filterMap fun
    | .act act => some act
    | _ => none

end World

/-! ## Computations -/

/-- The world with a further entry in its journal. -/
def World.noted (w : World) (entry : Entry) : World :=
  { w with journal := w.journal ++ [entry] }

/-- Adds to the journal. -/
def note (entry : Entry) : Run Unit :=
  modify (·.noted entry)

/-- Fails, and notes with what. -/
def raise {α : Type} (failure : Failure) : Run α := do
  note (.raised failure)
  throw failure

/-- Reads the clock. -/
def now : Run Instant := do
  let (instant, clock) := (← get).clock.read
  modify fun w => { w with clock := clock }
  return instant

/-- A computation whose failure is a value, unless it is an abort. -/
def attempt {α : Type} (x : Run α) : Run (Except Failure α) := fun w =>
  match x.run w with
  | (.ok a, w) => (.ok (.ok a), w)
  | (.error f, w) => if f.isAbort then (.error f, w) else (.ok (.error f), w)

/-- A computation with another one after it in any case, the failure of which comes first. -/
def ensuring {α : Type} (x : Run α) (last : Run Unit) : Run α := fun w =>
  let (result, w) := x.run w
  match last.run w with
  | (.ok (), w) => (result, w)
  | (.error f, w) => (.error f, w)

end ReleaseRunner.Session
