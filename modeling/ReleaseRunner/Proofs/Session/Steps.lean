import ReleaseRunner.Proofs.Log.Record
import ReleaseRunner.Proofs.Session.Computation
import ReleaseRunner.Session.Engine

/-!
# The steps of a session

Whatever listeners, performers of stages and the report do comes down to a few kinds of `Step` and
to the deliveries of events. Hooks start processes as well, and the runner itself adds a few more
steps, its marks among them (`RunnerStep`). The main statements say that a law that holds of every
step and of what is noted about deliveries holds of every script, delivery and item
(`ListenerLaw`), that it holds of hooks if it holds of processes (`PluginLaw`), and with the steps
of the runner of every session (`RunnerLaw`). They are the only places where scripts and nested
events are gone through; later results check their laws step by step.

A law that tells deliveries apart holds of the steps alone (`ScriptLaw`, `QuietLaw`). Then scripts
are left to its own account of events, and a session follows from that. A law about hooks alone
needs no more than the few steps that hooks take (`HookLaw`). One that tells the runner apart from
all that it calls on is given the events and items as wholes (`EventLaw`), and the hooks too where
they matter (`CourseLaw`).

Closing the listeners is one step, because what it promises concerns all of them together; it
is taken apart where its own law is proved.
-/

namespace ReleaseRunner.Session

open Config Files Log

variable {α : Type}

/-- The call closes a listener. -/
def Call.isClosing : Call → Bool
  | .close _ _ => true
  | _ => false

/-- The call belongs to the delivery of an event: a listener is called, or what came of an event
is told to the script that fired it. -/
def Call.isDelivery : Call → Bool
  | .listener _ _ _ => true
  | .fired _ => true
  | _ => false

/-- A step of what the runner calls on, which is plugins for the most part: the world before
it, the failure it ends with if any, and the world after it. Deliveries of events are no steps, nor
are the processes that hooks start. -/
inductive Step : World → Option Failure → World → Prop
  | raise (w : World) (f : Failure) : Step w (some f) (w.noted (.raised f))
  | record (w : World) (r : Record) : Step w none (w.noted (.record r (w.reach r.level)))
  | elsewhere (w : World) (r : Record) : Step w none (w.noted (.record r .made))
  | call (w : World) (c : Call) (hclosing : c.isClosing = false)
      (hdelivery : c.isDelivery = false) : Step w none (w.noted (.call c))
  | tag (w : World) (step : Option String) :
      Step w none { w with log := { w.log with step := step } }
  | closeLog (w : World) :
      Step w none { w with log := { w.log with closed := true, trace := none } }
  | make (w : World) (listener : Listener) (h : w.roster.closed = true) :
      Step w none { w with roster := w.roster.make listener }
  | enlist (w : World) (listener : Listener) (h : w.roster.closed = false) :
      Step w none { w with roster := w.roster.enlist listener }
  | enrol (w : World) (name : String) (h : w.roster.closed = false) :
      Step w none { w with roster := w.roster.enrol name }
  | policy (w : World) (name : String) (tolerant : Bool) :
      Step w none { w with roster := w.roster.setPolicy name tolerant }
  | dryRun (w : World) (value : Bool) : Step w none { w with dryRun := value }
  | filters (w : World) (filters : Filters) : Step w none { w with filters := filters }
  | tree (w : World) (tree : Tree) : Step w none { w with tree := tree }
  | cleanup (w : World) :
      Step w (failure? (exec cleanup w).1) (exec cleanup w).2

/-- A step of the runner itself. -/
inductive RunnerStep : World → Option Failure → World → Prop
  | mark (w : World) (act : Act) (hcleanup : act ≠ .cleanup) (hclose : act ≠ .closeLog) :
      RunnerStep w none (w.noted (.act act))
  | clock (w : World) : RunnerStep w none { w with clock := w.clock.read.2 }
  | session (w : World) (ended : Bool) (outcome : Option Outcome) :
      RunnerStep w none { w with ended := ended, outcome := outcome }

/-- What the runner logs by itself until the outcome is known: what the session is run with, that
listeners or hooks failed, and with what. -/
inductive Saying : Level → String → List Json → Members → Bool → Prop
  | dryRun (value : Bool) : Saying .info "dry-run set to %s" [.bool value] [] false
  | filter (filter : Filter) (values : List String) :
      Saying .info "%s: %s"
        [.text (filter.name.map fun c => if c == '_' then ' ' else c),
          .text (Text.joined ", " values)] [] false
  | listener (failure : ListenerFailure) :
      Saying .error "Listener %s failed" [.text failure.listener]
        [("continue_on_error", .bool failure.tolerant)] false
  | hooks : Saying .error "Unexpected error while running hooks" [] [] false
  | failure (failure : Failure) :
      Saying .debug "%s: %s" [.text failure.kind.name, .text failure.text] [] true

/-- A law that holds of what is logged under the name of no step. -/
structure LogLaw (P : World → Option Failure → World → Prop) : Prop extends Law P where
  logs : ∀ {extra : Members}, "step" ∉ extra.map Prod.fst → ∀ level message values traceback,
    Obeys P (say level message values extra traceback)

/-- A law that holds of the steps that hooks take. -/
structure HookLaw (P : World → Option Failure → World → Prop) : Prop extends LogLaw P where
  named : ∀ w name, P w none (w.noted (.call (.process name)))
  process : ∀ w start, P w none (w.noted (.process start))

/-- A law that holds of every step. -/
structure ScriptLaw (P : World → Option Failure → World → Prop) : Prop extends Law P where
  step : ∀ {u e v}, Step u e v → P u e v

/-- A law that holds of every step and of processes. -/
structure QuietLaw (P : World → Option Failure → World → Prop) : Prop extends ScriptLaw P where
  process : ∀ w start, P w none (w.noted (.process start))

/-- A law that holds of the deliveries of events. A listener may be left out of account unless it
is at a place where it can be called. -/
structure DeliveryLaw (P : World → Option Failure → World → Prop) : Prop extends Law P where
  endless : ∀ w, P w (some endless) (w.noted (.raised endless))
  event : ∀ w members,
    P w none (World.noted { w with clock := w.clock.read.2 } (.event members))
  called : ∀ {fire : Event → Run Bool}, (∀ event, Obeys P (fire event)) →
    ∀ (key : String) {w : World} {place id : Nat} {listener : Listener},
      w.roster.at? place = some (id, listener) → ObeysAt P (callListener fire key id listener) w

/-- A law that holds of all that listeners and performers of stages do, the deliveries of events
among it. -/
structure ListenerLaw (P : World → Option Failure → World → Prop) : Prop extends ScriptLaw P where
  heard : ∀ w {c : Call}, c.isDelivery = true → P w none (w.noted (.call c))
  event : ∀ w members,
    P w none (World.noted { w with clock := w.clock.read.2 } (.event members))

/-- A law that holds of all that the runner calls on. -/
structure PluginLaw (P : World → Option Failure → World → Prop) : Prop
    extends ListenerLaw P, QuietLaw P

/-- A law that holds of what the runner logs until the outcome is known. -/
structure TellLaw (P : World → Option Failure → World → Prop) : Prop extends Law P where
  tells : ∀ {level message values extra traceback}, Saying level message values extra traceback →
    Obeys P (say level message values extra traceback)

/-- The act belongs to what is done before the end of a session is stamped. -/
def Act.isEarly : Act → Bool
  | .stamp => false
  | .report => false
  | .closingHooks _ => false
  | .cleanup => false
  | .closeLog => false
  | _ => true

/-- A law that holds of what the runner does itself until the end of the session, apart from hooks,
for which it has to hold of the events and items that it calls on. The runner takes the tag off its
records even after a failure, so a law has to put up with that. -/
structure EventLaw (P : World → Option Failure → World → Prop) : Prop extends TellLaw P where
  setStep : ∀ step, Obeys P (setStep step)
  mark : ∀ {act : Act}, act.isEarly = true → Obeys P (note (.act act))
  untag : ∀ {u e v}, P u e v → P u e { v with log := { v.log with step := none } }
  fire : ∀ event, Obeys P (fire event)
  fireStart : Obeys P fireStart
  fireEnd : Obeys P fireEnd
  invoke : ∀ item : Item, Obeys P item.invoke

/-- A law that holds of what the runner does itself until the outcome is known, for which it has to
hold of the hooks as well. -/
structure CourseLaw (P : World → Option Failure → World → Prop) : Prop extends EventLaw P where
  hooks : ∀ runner event, Obeys P (runHooks runner event)
  closing : ∀ phase, Obeys P (note (.act (.closingHooks phase)))

/-- A law that holds of all that the runner does, for which it has to hold of events and items
as a whole. The runner takes the tag off its records even after a failure, so a law has to put
up with that. -/
structure RunnerLaw (P : World → Option Failure → World → Prop) : Prop extends QuietLaw P where
  own : ∀ {u e v}, RunnerStep u e v → P u e v
  untag : ∀ {u e v}, P u e v → P u e { v with log := { v.log with step := none } }
  fire : ∀ event, Obeys P (fire event)
  fireStart : Obeys P fireStart
  fireEnd : Obeys P fireEnd
  invoke : ∀ item : Item, Obeys P item.invoke

/-! ## Logging -/

/-- The failure to log under a name that is taken is no abort. -/
theorem isAbort_of_refusal? {extra : Members} {f : Failure} (h : Record.refusal? extra = some f) :
    f.isAbort = false := by
  obtain ⟨member, -, hmember⟩ := Option.map_eq_some_iff.mp h
  rw [← hmember]
  rfl

/-- Logging adds one record or none, unless a name is taken. -/
theorem exec_say (level : Level) (message : String) (values : List Json) (extra : Members)
    (traceback : Bool) (w : World) :
    exec (say level message values extra traceback) w =
      match Record.refusal? (w.log.tagged extra) with
      | some refusal => (if w.level.admits level then .error refusal else .ok (), w)
      | none =>
        match Record.make? sessionLogger level message values (w.log.tagged extra) traceback with
        | some record => (.ok (), w.noted (.record record (w.reach level)))
        | none => (.ok (), w) := by
  unfold say
  rw [exec_bind, exec_get]
  dsimp only
  cases Record.refusal? (w.log.tagged extra) with
  | some refusal => cases w.level.admits level <;> rfl
  | none =>
    dsimp only
    cases Record.make? sessionLogger level message values (w.log.tagged extra) traceback <;> rfl

/-- The tag that a record gets from the log is no name of its own. -/
theorem refusal?_tagged (log : SessionLog) (extra : Members) :
    Record.refusal? (log.tagged extra) = Record.refusal? extra := by
  unfold SessionLog.tagged
  split
  · split
    · rfl
    · have htag : Record.ownNames.contains "step" = false := by decide
      unfold Record.refusal?
      simp only [List.find?_append, List.find?_cons, htag, List.find?_nil, Option.or_none]
  · rfl

/-- The tag can be shown with what can be shown. -/
theorem isShowable_tagged {extra : Members} (h : Record.isShowable extra = true)
    (log : SessionLog) : Record.isShowable (log.tagged extra) = true := by
  unfold SessionLog.tagged
  split
  · split
    · exact h
    · next step _ _ =>
      rw [Record.isShowable_append, h, Record.isShowable_text (by decide) step]
      rfl
  · exact h

/-- Logging succeeds where no name is taken: it adds a record that was made of the message, or
none. -/
theorem exec_say_untaken {extra : Members} (h : Record.refusal? extra = none) (level : Level)
    (message : String) (values : List Json) (traceback : Bool) (w : World) :
    exec (say level message values extra traceback) w = (.ok (), w) ∨
      ∃ record, Record.make? sessionLogger level message values (w.log.tagged extra) traceback =
          some record ∧
        exec (say level message values extra traceback) w =
          (.ok (), w.noted (.record record (w.reach level))) := by
  rw [exec_say, refusal?_tagged, h]
  cases hmake : Record.make? sessionLogger level message values (w.log.tagged extra) traceback with
  | none => exact .inl rfl
  | some record => exact .inr ⟨record, rfl, rfl⟩

/-- A record that is made of the message is added, where no name is taken. -/
theorem exec_say_made {extra : Members} (h : Record.refusal? extra = none) {level : Level}
    {message : String} {values : List Json} {traceback : Bool} {w : World} {record : Record}
    (hmake : Record.make? sessionLogger level message values (w.log.tagged extra) traceback =
      some record) :
    exec (say level message values extra traceback) w =
      (.ok (), w.noted (.record record (w.reach level))) := by
  rw [exec_say, refusal?_tagged, h, hmake]

/-- What is shown of the filters is shown of one of them. -/
theorem filter_of_active {filters : Filters} {entry : String × List String}
    (h : entry ∈ filters.active) : ∃ (filter : Filter) (names : List String),
      entry = (filter.name, names) := by
  obtain ⟨filter, -, hfilter⟩ := List.mem_filterMap.mp h
  split at hfilter
  · cases hfilter
  · cases hfilter
    exact ⟨filter, _, rfl⟩

/-! ## Registering -/

/-- The refusal to register a listener where they were closed. -/
def registerRefusal : Failure := .release "Extension manager has already been cleaned up"

theorem exec_enlist_of_open (listener : Listener) {w : World} (h : w.roster.closed = false) :
    exec (enlist listener) w = (.ok (), { w with roster := w.roster.enlist listener }) := by
  unfold enlist
  rw [exec_bind, exec_get]
  simp only [h, Bool.false_eq_true, if_false]
  rfl

/-- On a closed roster the listener is made first, and refused only after that. -/
theorem exec_enlist_of_closed (listener : Listener) {w : World} (h : w.roster.closed = true) :
    exec (enlist listener) w =
      (.error registerRefusal, { w with roster := w.roster.make listener }) := by
  unfold enlist
  rw [exec_bind, exec_get]
  simp only [h, if_true]
  rfl

theorem exec_enrol_of_open (name : String) {w : World} (h : w.roster.closed = false) :
    exec (enrol name) w = (.ok (), { w with roster := w.roster.enrol name }) := by
  unfold enrol
  rw [exec_bind, exec_get]
  simp only [h, Bool.false_eq_true, if_false]
  rfl

theorem exec_enrol_of_closed (name : String) {w : World} (h : w.roster.closed = true) :
    exec (enrol name) w = (.error registerRefusal, w) := by
  unfold enrol
  rw [exec_bind, exec_get]
  simp only [h, if_true]
  rfl

/-! ## Failures that are no aborts -/

/-- The system's refusals are no aborts. -/
theorem isAbort_refusal (refusal : Refusal) (path : Path) :
    (refusal.failure path).isAbort = false := by
  cases refusal <;> rfl

private theorem isAbort_of_makeLast {tree : Tree} {path : Path} {f : Failure}
    (h : tree.makeLast path = .error f) : f.isAbort = false := by
  unfold Tree.makeLast at h
  split at h
  · cases h
  · split at h
    · cases h
    · cases h
      exact isAbort_refusal _ _

private theorem isAbort_of_makeFrom : ∀ (depth : Nat) {tree : Tree} {path : Path} {f : Failure},
    Tree.makeFrom depth tree path = .error f → f.isAbort = false := by
  intro depth
  -- the folders above are made before the last one
  induction depth with
  | zero => exact fun h => isAbort_of_makeLast h
  | succ depth ih =>
    intro tree path f h
    unfold Tree.makeFrom at h
    split at h
    · cases hparent : Tree.makeFrom depth tree path.parent with
      | error g =>
        rw [hparent] at h
        cases h
        exact ih hparent
      | ok tree =>
        rw [hparent] at h
        exact isAbort_of_makeLast h
    · exact isAbort_of_makeLast h

theorem isAbort_of_makeFolder {tree : Tree} {path : Path} {f : Failure}
    (h : tree.makeFolder path = .error f) : f.isAbort = false :=
  isAbort_of_makeFrom _ h

theorem isAbort_of_writeText {tree : Tree} {path : Path} {s : String} {f : Failure}
    (h : tree.writeText path s = .error f) : f.isAbort = false := by
  have hmap : ∀ written : Except Refusal Tree,
      written.mapError (·.failure path) = .error f → f.isAbort = false := by
    rintro (refusal | tree) h
    · cases h
      exact isAbort_refusal _ _
    · cases h
  exact hmap _ h

/-- What the runner fails with in the end is no abort. -/
theorem isAbort_propagated (cause : Failure) : (propagated cause).isAbort = false := by
  unfold propagated
  split
  · rfl
  · next h => exact Bool.eq_false_iff.mpr h

/-! ## Hooks -/

/-- The level of a record is that of the call that it was made for. -/
theorem level_of_make? {logger : String} {level : Level} {message : String} {values : List Json}
    {extra : Members} {traceback : Bool} {record : Record}
    (h : Record.make? logger level message values extra traceback = some record) :
    record.level = level := by
  obtain ⟨-, _, -, rfl⟩ := Record.make?_eq_some_iff.mp h
  rfl

/-- A law of records holds of logging. -/
theorem obeys_say {P : World → Option Failure → World → Prop} (law : Law P)
    (record : ∀ w r, P w none (w.noted (.record r (w.reach r.level)))) (level : Level)
    (message : String) (values : List Json) (extra : Members) (traceback : Bool) :
    Obeys P (say level message values extra traceback) := by
  intro w
  rw [exec_say]
  split
  · next refusal hrefusal =>
    cases w.level.admits level with
    | true => exact law.fail w refusal (isAbort_of_refusal? hrefusal)
    | false => exact law.refl w
  · split
    · next r hmake =>
      rw [← level_of_make? hmake]
      exact record w r
    · exact law.refl w

section
variable {P : World → Option Failure → World → Prop} (law : HookLaw P)
include law

theorem HookLaw.startProgram (start : ProcessStart) :
    Obeys P (Session.startProgram start) := by
  unfold Session.startProgram
  split
  · exact .throw law.toLaw rfl
  · exact .get_bind fun _ => .bind law.toLaw (fun w => law.named w _) fun _ =>
      .bind law.toLaw (fun w => law.process w start) fun _ => .pure law.toLaw _

theorem HookLaw.runProcess (hook : Hook) (start : ProcessStart) :
    Obeys P (Session.runProcess hook start) := by
  refine .bind law.toLaw (law.startProgram start) fun program => ?_
  cases program with
  | timesOut => exact .pure law.toLaw _
  | unstartable text => exact .pure law.toLaw _
  | fails failure ordinary => exact .throw law.toLaw ordinary
  | exits code output errors =>
    have hlog : Obeys P (logErrors hook errors) := by
      unfold logErrors
      split
      · exact .pure law.toLaw _
      · exact law.logs (by simp) _ _ _ _
    have hend : Obeys P (if code = 0 then pure none else do
        logErrors hook errors
        return some ⟨s!"Hook exited with code {code}: {hook.command}", some code⟩ :
          Run (Option HookFailure)) := by
      split
      · exact .pure law.toLaw _
      · exact .bind law.toLaw hlog fun _ => .pure law.toLaw _
    dsimp only
    split
    · exact .bind law.toLaw (.forM law.toLaw fun _ _ => law.logs (by simp) _ _ _ _) fun _ => hend
    · exact hend

theorem HookLaw.runHook (runner : HookRunner) (event : Event) (hook : Hook) :
    Obeys P (Session.runHook runner event hook) := by
  refine .bind law.toLaw (law.logs (by simp) _ _ _ _) fun _ => ?_
  split
  · exact .throw law.toLaw rfl
  · refine .get_bind fun w => .bind law.toLaw (law.runProcess hook _) fun failure => ?_
    split
    · exact .pure law.toLaw _
    · split
      · exact law.logs (by simp) _ _ _ _
      · exact .throw law.toLaw rfl

theorem HookLaw.runHooks (runner : HookRunner) (event : Event) :
    Obeys P (Session.runHooks runner event) := by
  unfold Session.runHooks
  split
  · exact .pure law.toLaw _
  · dsimp only
    split
    · exact .pure law.toLaw _
    · exact .bind law.toLaw (law.logs (by simp) _ _ _ _) fun _ => .forM law.toLaw fun _ _ =>
        law.runHook _ _ _

end

/-! ## Deliveries -/

/-- A delivery obeys a law that the calls of its listeners obey, and the failure to go on without
end. -/
theorem obeys_deliverFrom {P : World → Option Failure → World → Prop} (law : Law P)
    (hendless : ∀ w, P w (some endless) (w.noted (.raised endless))) {fire : Event → Run Bool}
    {key : String}
    (hcall : ∀ {w : World} {place id : Nat} {listener : Listener},
      w.roster.at? place = some (id, listener) →
      ObeysAt P (callListener fire key id listener) w) :
    ∀ (calls place : Nat) (tolerated : List ListenerFailure),
      Obeys P (deliverFrom fire key calls place tolerated) := by
  intro calls
  induction calls with
  | zero => exact fun _ _ w => hendless w
  | succ calls ih =>
    intro place tolerated w
    unfold deliverFrom
    rw [exec_bind_ok (exec_get w)]
    -- the roster is read anew in each round, since a script may have added to it
    cases hat : w.roster.at? place with
    | none => exact law.refl w
    | some entry =>
      obtain ⟨id, listener⟩ := entry
      refine ObeysAt.bind law (.attempt law (hcall hat)) fun result => ?_
      cases result with
      | ok => exact ih _ _
      | error cause =>
        refine .get_bind fun v => ?_
        dsimp only
        split
        · exact ih _ _
        · exact .pure law _

section
variable {P : World → Option Failure → World → Prop} (law : DeliveryLaw P)
include law

theorem DeliveryLaw.deliver {fire : Event → Run Bool} (hfire : ∀ event, Obeys P (fire event))
    (key : String) : Obeys P (Session.deliver fire key) := by
  refine .get_bind fun w => ?_
  split
  · exact .pure law.toLaw _
  · split
    · exact .pure law.toLaw _
    · exact obeys_deliverFrom law.toLaw law.endless (law.called hfire key) _ _ _

theorem DeliveryLaw.recordEvent (members : Members) : Obeys P (Session.recordEvent members) :=
  fun w => law.event w _

theorem DeliveryLaw.fireWithin : ∀ (depth : Nat) (event : Event),
    Obeys P (Session.fireWithin depth event) := by
  intro depth
  induction depth with
  | zero => exact fun _ w => law.endless w
  | succ depth ih =>
    -- the events that a script fires are one level deeper
    exact fun event => .bind law.toLaw (law.recordEvent _) fun _ =>
      law.deliver (fun event => .bind law.toLaw (ih event) fun _ => .pure law.toLaw _) _

theorem DeliveryLaw.fire (event : Event) : Obeys P (Session.fire event) :=
  .get_bind fun _ => law.fireWithin _ event

theorem DeliveryLaw.fired (event : Event) :
    Obeys P (do return (← Session.fire event).ok : Run Bool) :=
  .bind law.toLaw (law.fire event) fun _ => .pure law.toLaw _

theorem DeliveryLaw.fireStart : Obeys P Session.fireStart :=
  .bind law.toLaw (law.recordEvent _) fun _ => law.deliver law.fired _

theorem DeliveryLaw.fireEnd : Obeys P Session.fireEnd :=
  .bind law.toLaw (law.recordEvent _) fun _ => law.deliver law.fired _

end

/-! ## Logging and registering -/

section
variable {P : World → Option Failure → World → Prop} (law : LogLaw P)
include law

/-- What the runner logs on the way is under the name of no step. -/
theorem LogLaw.tellLaw : TellLaw P :=
  { law.toLaw with
    tells := fun h => law.logs (by cases h <;> simp) _ _ _ _ }

theorem LogLaw.trace (failure : Failure) : Obeys P (Session.trace failure) :=
  law.logs (by simp) _ _ _ _

theorem LogLaw.conclude (outcome : Outcome) (duration : String) :
    Obeys P (Session.conclude outcome duration) := by
  unfold Session.conclude
  split
  · exact law.logs (by simp) _ _ _ _
  · exact .bind law.toLaw (law.logs (by simp) _ _ _ _) fun _ =>
      .bind law.toLaw (law.trace _) fun _ => .throw law.toLaw (isAbort_propagated _)

end

/-- A law of the files and of a record of the context holds of the report. -/
theorem obeys_report {P : World → Option Failure → World → Prop} (law : Law P)
    (tree : ∀ w tree, P w none { w with tree := tree })
    (written : ∀ level message extra traceback,
      Obeys P (sayElsewhere contextLogger level message extra traceback)) (setup : Setup) :
    Obeys P (report setup) :=
  .get_bind fun _ => .bind law (.lift law fun _ h => isAbort_of_makeFolder h) fun _ =>
    .get_bind fun _ => .bind law (.lift law fun _ h => isAbort_of_writeText h) fun _ =>
    .bind law (fun w => tree w _) fun _ => written _ _ _ _

section
variable {P : World → Option Failure → World → Prop} (law : ScriptLaw P)
include law

theorem ScriptLaw.say (level : Level) (message : String) (values : List Json) (extra : Members)
    (traceback : Bool) : Obeys P (Session.say level message values extra traceback) :=
  obeys_say law.toLaw (fun w r => law.step (.record w r)) _ _ _ _ _

theorem ScriptLaw.sayElsewhere (logger : String) (level : Level) (message : String)
    (extra : Members) (traceback : Bool) :
    Obeys P (Session.sayElsewhere logger level message extra traceback) := by
  intro w
  unfold Session.sayElsewhere
  split
  · exact law.step (.elsewhere w _)
  · exact law.refl w

theorem ScriptLaw.trace (failure : Failure) : Obeys P (Session.trace failure) :=
  law.say _ _ _ _ _

theorem ScriptLaw.setStep (step : Option String) : Obeys P (Session.setStep step) :=
  fun w => law.step (.tag w step)

theorem ScriptLaw.call {c : Call} (hclosing : c.isClosing = false)
    (hdelivery : c.isDelivery = false) : Obeys P (note (.call c)) :=
  fun w => law.step (.call w c hclosing hdelivery)

theorem ScriptLaw.raise (f : Failure) : Obeys P (Session.raise f : Run α) :=
  fun w => law.step (.raise w f)

/-! ## Scripts -/

theorem ScriptLaw.enlist (listener : Listener) : Obeys P (Session.enlist listener) := by
  intro w
  cases hclosed : w.roster.closed with
  | false =>
    rw [exec_enlist_of_open listener hclosed]
    exact law.step (.enlist w listener hclosed)
  | true =>
    rw [exec_enlist_of_closed listener hclosed]
    exact law.trans (law.step (.make w listener hclosed)) (law.fail _ _ rfl)

theorem ScriptLaw.enrol (name : String) : Obeys P (Session.enrol name) := by
  intro w
  cases hclosed : w.roster.closed with
  | false =>
    rw [exec_enrol_of_open name hclosed]
    exact law.step (.enrol w name hclosed)
  | true =>
    rw [exec_enrol_of_closed name hclosed]
    exact law.fail w _ rfl

theorem ScriptLaw.act {fire : Event → Run Bool}
    (hfired : ∀ event, Obeys P (do let ok ← fire event; note (.call (.fired ok))))
    (action : Action) : Obeys P (Session.act fire action) := by
  cases action with
  | raise failure => exact law.raise failure
  | log level message values extra => exact law.say _ _ _ _ _
  | trace failure => exact law.trace failure
  | step name => exact law.setStep _
  | reset => exact law.setStep _
  | closeLog => exact fun w => law.step (.closeLog w)
  | register name tolerant properties script => exact law.enlist _
  | enrol name => exact law.enrol name
  | cleanup => exact fun w => law.step (.cleanup w)
  | policy name tolerant => exact fun w => law.step (.policy w name tolerant)
  | dryRun value => exact fun w => law.step (.dryRun w value)
  | filter filter name => exact fun w => law.step (.filters w _)
  | fire event => exact hfired event

theorem ScriptLaw.deliverFrom {fire : Event → Run Bool} {key : String}
    (hcall : ∀ id listener, Obeys P (Session.callListener fire key id listener)) :
    ∀ (calls place : Nat) (tolerated : List ListenerFailure),
      Obeys P (Session.deliverFrom fire key calls place tolerated) :=
  obeys_deliverFrom law.toLaw (fun w => law.step (.raise w endless)) fun {w} _ {id listener} _ =>
    hcall id listener w

theorem ScriptLaw.perform
    (hfired : ∀ event, Obeys P (do
      let ok ← (do return (← Session.fire event).ok : Run Bool)
      note (.call (.fired ok)))) (actions : List Action) : Obeys P (Session.perform actions) :=
  .forM law.toLaw fun _ _ => law.act hfired _

theorem ScriptLaw.invoke (hperform : ∀ actions, Obeys P (Session.perform actions)) (item : Item) :
    Obeys P item.invoke := by
  unfold Item.invoke
  split
  · exact .bind law.toLaw (law.call rfl rfl) fun _ => hperform _
  · exact law.say _ _ _ _ _

/-! ## What is made of failures -/

theorem ScriptLaw.report (setup : Setup) : Obeys P (Session.report setup) :=
  obeys_report law.toLaw (fun w tree => law.step (.tree w tree)) (law.sayElsewhere _) setup

theorem ScriptLaw.logLaw : LogLaw P :=
  { law.toLaw with logs := fun _ _ _ _ _ => law.say _ _ _ _ _ }

theorem ScriptLaw.conclude (outcome : Outcome) (duration : String) :
    Obeys P (Session.conclude outcome duration) :=
  law.logLaw.conclude outcome duration

end

section
variable {P : World → Option Failure → World → Prop} (law : QuietLaw P)
include law

theorem QuietLaw.hookLaw : HookLaw P :=
  { law.logLaw with
    named := fun w name => law.step (.call w (.process name) rfl rfl)
    process := law.process }

theorem QuietLaw.runHooks (runner : HookRunner) (event : Event) :
    Obeys P (Session.runHooks runner event) :=
  law.hookLaw.runHooks runner event

end

/-! ## What listeners do -/

section
variable {P : World → Option Failure → World → Prop} (law : ListenerLaw P)
include law

theorem ListenerLaw.answered {fire : Event → Run Bool} (hfire : ∀ event, Obeys P (fire event))
    (event : Event) : Obeys P (do let ok ← fire event; note (.call (.fired ok))) :=
  .bind law.toLaw (hfire event) fun _ w => law.heard w rfl

theorem ListenerLaw.callListener {fire : Event → Run Bool} (hfire : ∀ event, Obeys P (fire event))
    (key : String) (id : Nat) (listener : Listener) :
    Obeys P (Session.callListener fire key id listener) :=
  .bind law.toLaw (fun w => law.heard w rfl) fun _ =>
    .forM law.toLaw fun _ _ => law.act (law.answered hfire) _

theorem ListenerLaw.deliveryLaw : DeliveryLaw P :=
  { law.toLaw with
    endless := fun w => law.step (.raise w endless)
    event := law.event
    called := fun {_} hfire key {w} _ {id listener} _ => law.callListener hfire key id listener w }

theorem ListenerLaw.perform (actions : List Action) : Obeys P (Session.perform actions) :=
  law.toScriptLaw.perform (law.answered law.deliveryLaw.fired) actions

theorem ListenerLaw.invoke (item : Item) : Obeys P item.invoke :=
  law.toScriptLaw.invoke law.perform item

end

/-- What holds of events on their own holds of the course of a session with its marks. -/
theorem EventLaw.ofListener {P : World → Option Failure → World → Prop} (law : ListenerLaw P)
    (mark : ∀ {act : Act}, act.isEarly = true → Obeys P (note (.act act)))
    (untag : ∀ {u e v}, P u e v → P u e { v with log := { v.log with step := none } }) :
    EventLaw P :=
  { law.toLaw with
    tells := fun _ => law.say _ _ _ _ _
    setStep := law.toScriptLaw.setStep
    mark := mark
    untag := untag
    fire := law.deliveryLaw.fire
    fireStart := law.deliveryLaw.fireStart
    fireEnd := law.deliveryLaw.fireEnd
    invoke := law.invoke }

theorem CourseLaw.ofPlugin {P : World → Option Failure → World → Prop} (law : PluginLaw P)
    (mark : ∀ {act : Act}, act.isEarly = true → Obeys P (note (.act act)))
    (closing : ∀ phase, Obeys P (note (.act (.closingHooks phase))))
    (untag : ∀ {u e v}, P u e v → P u e { v with log := { v.log with step := none } }) :
    CourseLaw P :=
  { EventLaw.ofListener law.toListenerLaw mark untag with
    hooks := law.runHooks
    closing := closing }

/-- What holds of events on their own holds of the session with its own steps. -/
theorem RunnerLaw.ofPlugin {P : World → Option Failure → World → Prop} (law : PluginLaw P)
    (own : ∀ {u e v}, RunnerStep u e v → P u e v)
    (untag : ∀ {u e v}, P u e v → P u e { v with log := { v.log with step := none } }) :
    RunnerLaw P :=
  { law.toQuietLaw with
    own := own
    untag := untag
    fire := law.deliveryLaw.fire
    fireStart := law.deliveryLaw.fireStart
    fireEnd := law.deliveryLaw.fireEnd
    invoke := law.invoke }

/-! ## The course of a session -/

section
variable {P : World → Option Failure → World → Prop} (law : TellLaw P)
include law

theorem TellLaw.announce : Obeys P Session.announce := by
  refine .get_bind fun _ => .bind law.toLaw (law.tells (.dryRun _)) fun _ =>
    .get_bind fun w => .forM law.toLaw fun entry hentry => ?_
  obtain ⟨filter, names, rfl⟩ := filter_of_active hentry
  exact law.tells (.filter filter names)

theorem TellLaw.haltOf (delivery : Delivery) : Obeys P (Session.haltOf delivery) :=
  .bind law.toLaw (.forM law.toLaw fun _ _ => .bind law.toLaw (law.tells (.listener _))
    fun _ => law.tells (.failure _)) fun _ => .pure law.toLaw _

theorem TellLaw.attemptHooks {runner : HookRunner} {event : Event}
    (hooks : Obeys P (runHooks runner event)) : Obeys P (Session.attemptHooks runner event) := by
  refine .bind law.toLaw (.attempt law.toLaw hooks) fun result => ?_
  split
  · exact .pure law.toLaw _
  · exact .bind law.toLaw (law.tells .hooks) fun _ =>
      .bind law.toLaw (law.tells (.failure _)) fun _ => .pure law.toLaw _

end

section
variable {P : World → Option Failure → World → Prop} (law : EventLaw P)
include law

theorem EventLaw.fireBefore (step : String) : Obeys P (Session.fireBefore step) :=
  .bind law.toLaw (law.mark rfl) fun _ => .bind law.toLaw (law.fire _) fun _ => law.haltOf _

theorem EventLaw.fireSucceeded (step : String) : Obeys P (Session.fireSucceeded step) :=
  .bind law.toLaw (law.mark rfl) fun _ => .bind law.toLaw (law.fire _) fun _ => law.haltOf _

theorem EventLaw.fireFailed (step : String) (cause : Failure) :
    Obeys P (Session.fireFailed step cause) :=
  .bind law.toLaw (law.mark rfl) fun _ => .bind law.toLaw (law.fire _) fun _ =>
    .bind law.toLaw (law.haltOf _) fun _ => .pure law.toLaw _

theorem EventLaw.runItems : ∀ (items : List Item) (setbacks : Setbacks),
    Obeys P (Session.runItems items setbacks) := by
  intro items
  induction items with
  | nil => exact fun _ => .pure law.toLaw _
  | cons item items ih =>
    intro setbacks
    refine .bind law.toLaw (law.setStep _) fun _ => ?_
    refine .bind law.toLaw (law.fireBefore _) fun before => ?_
    split
    · exact .pure law.toLaw _
    · -- the failure of an item is caught, and the event that follows depends on it
      refine .bind law.toLaw (law.mark rfl) fun _ =>
        .bind law.toLaw (.attempt law.toLaw (law.invoke item)) fun result => ?_
      split
      · refine .bind law.toLaw (law.fireSucceeded _) fun succeeded => ?_
        split
        · exact .pure law.toLaw _
        · exact ih _
      · refine .bind law.toLaw (law.fireFailed _ _) fun failed => ?_
        split
        · exact .pure law.toLaw _
        · exact ih _
        · exact .pure law.toLaw _

/-- The session is started once the hooks in front of it are through. -/
theorem EventLaw.start : Obeys P (do
    Session.mark .sessionStart
    return ({ startListener := ← haltOf (← Session.fireStart) } : Setbacks)) :=
  .bind law.toLaw (law.mark rfl) fun _ => .bind law.toLaw law.fireStart fun _ =>
    .bind law.toLaw (law.haltOf _) fun _ => .pure law.toLaw _

theorem EventLaw.runSteps (items : List Item) (setbacks : Setbacks) :
    Obeys P (Session.runSteps items setbacks) :=
  .bind law.toLaw (.ensuring (law.runItems items setbacks) (fun _ => rfl) law.untag) fun _ =>
    .bind law.toLaw (law.mark rfl) fun _ => .bind law.toLaw law.fireEnd fun _ =>
    .bind law.toLaw (law.haltOf _) fun _ => .pure law.toLaw _

end

section
variable {P : World → Option Failure → World → Prop} (law : CourseLaw P)
include law

theorem CourseLaw.attemptHooks (runner : HookRunner) (event : Event) :
    Obeys P (Session.attemptHooks runner event) :=
  law.toTellLaw.attemptHooks (law.hooks runner event)

theorem CourseLaw.startSession (runner : HookRunner) : Obeys P (Session.startSession runner) := by
  refine .bind law.toLaw (law.mark rfl) fun _ =>
    .bind law.toLaw (law.attemptHooks runner _) fun failure => ?_
  split
  · exact .pure law.toLaw _
  · exact law.start

theorem CourseLaw.drive (runner : HookRunner) (items : List Item) :
    Obeys P (Session.drive runner items) := by
  refine .bind law.toLaw (law.startSession runner) fun setbacks => ?_
  split
  · exact .pure law.toLaw _
  · exact law.runSteps items _

theorem CourseLaw.runClosingHooks (runner : HookRunner) (outcome : Outcome) :
    Obeys P (Session.runClosingHooks runner outcome) := by
  unfold Session.runClosingHooks
  split
  · exact .pure law.toLaw _
  · exact .bind law.toLaw (law.closing _) fun _ =>
      .bind law.toLaw (law.attemptHooks runner _) fun _ => .pure law.toLaw _

end

/-! ## The runner -/

section
variable {P : World → Option Failure → World → Prop} (law : RunnerLaw P)
include law

theorem RunnerLaw.courseLaw : CourseLaw P :=
  { law.toLaw with
    tells := fun _ => law.say _ _ _ _ _
    setStep := law.toScriptLaw.setStep
    mark := fun {act} hearly w => law.own (.mark w act (by rintro rfl; cases hearly)
      (by rintro rfl; cases hearly))
    closing := fun _ w => law.own (.mark w _ (by simp) (by simp))
    untag := law.untag
    hooks := law.runHooks
    fire := law.fire
    fireStart := law.fireStart
    fireEnd := law.fireEnd
    invoke := law.invoke }

theorem RunnerLaw.stampEnd : Obeys P Session.stampEnd :=
  .bind law.toLaw (fun w => law.own (.mark w _ (by simp) (by simp))) fun _ =>
    .bind law.toLaw (fun w => law.own (.clock w)) fun _ =>
    .bind law.toLaw (fun w => law.own (.session w _ _)) fun _ => .pure law.toLaw _

theorem RunnerLaw.reportOutcome (setup : Setup) (setbacks : Setbacks) :
    Obeys P (Session.reportOutcome setup setbacks) :=
  .bind law.toLaw (law.setStep _) fun _ =>
    .bind law.toLaw (fun w => law.own (.mark w _ (by simp) (by simp))) fun _ =>
    .bind law.toLaw (law.report setup) fun _ =>
    .bind law.toLaw (fun w => law.own (.session w _ _)) fun _ => .pure law.toLaw _

theorem RunnerLaw.runSession (setup : Setup) (runner : HookRunner) (items : List Item) :
    Obeys P (Session.runSession setup runner items) :=
  .bind law.toLaw (fun w => law.own (.clock w)) fun _ =>
    .bind law.toLaw (fun w => law.own (.session w _ _)) fun _ =>
    .bind law.toLaw law.courseLaw.announce fun _ =>
    .bind law.toLaw (law.courseLaw.drive runner items) fun _ =>
    .bind law.toLaw law.stampEnd fun _ =>
    .bind law.toLaw (law.reportOutcome setup _) fun _ =>
    .bind law.toLaw (law.courseLaw.runClosingHooks runner _) fun _ => law.conclude _ _

end

end ReleaseRunner.Session
