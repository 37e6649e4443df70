import ReleaseRunner.Proofs.Session.Steps

/-!
# Two runs side by side

Let a relation between the worlds of two runs be given. What two computations come to may `Agree`:
the same result, and worlds that are related. A computation `Matches` another one if they agree
wherever they are started in worlds that are related.

A `Likeness` is a relation between worlds that differ at most in their programs, their listeners and
their journals. Then all that the runner does itself matches, and so does a session, once its hooks,
its events and its items do (`CourseLikeness`).

Two worlds are `Alike` if they differ at most in the programs that can be started and in entries of
the journal that are hidden. Apart from hooks nothing starts programs, and apart from the report
nothing reads the journal. So every script, delivery and item matches itself, whatever is hidden but
the recorded events, and two runs up to the report agree once the hooks in front of the session do.
-/

namespace ReleaseRunner.Session

open Config Files Log

variable {α β : Type}

/-- What two computations come to is the same result, and worlds that are related. -/
def Agree (R : World → World → Prop) (run other : Except Failure α × World) : Prop :=
  other.1 = run.1 ∧ R run.2 other.2

/-- Computations that come to the same in worlds that are related. -/
def Matches (R : World → World → Prop) (x y : Run α) : Prop :=
  ∀ u v, R u v → Agree R (exec x u) (exec y v)

variable {R : World → World → Prop}

/-- What is done last in any case may be matched after the rest. -/
theorem Agree.ensuring {x y : Run α} {u v : World} (h : Agree R (exec x u) (exec y v))
    {last last' : Run Unit} (hlast : Matches R last last') :
    Agree R (exec (Session.ensuring x last) u) (exec (Session.ensuring y last') v) := by
  obtain ⟨hresult, hrelated⟩ := h
  obtain ⟨hresult', hrelated'⟩ := hlast _ _ hrelated
  rw [exec_ensuring, exec_ensuring]
  rcases hr : exec last (exec x u).2 with ⟨e | _, u'⟩ <;>
    rcases hs : exec last' (exec y v).2 with ⟨e' | _, v'⟩ <;>
    rw [hr, hs] at hresult' hrelated' <;> cases hresult'
  · exact ⟨rfl, hrelated'⟩
  · exact ⟨hresult, hrelated'⟩

/-- What comes next may be matched after the rest. -/
theorem Agree.bind {x y : Run α} {f g : α → Run β} {u v : World}
    (h : Agree R (exec x u) (exec y v)) (hf : ∀ a, Matches R (f a) (g a)) :
    Agree R (exec (x >>= f) u) (exec (y >>= g) v) := by
  obtain ⟨hresult, hrelated⟩ := h
  rw [exec_bind, exec_bind]
  rcases hr : exec x u with ⟨e | a, u'⟩ <;> rcases hs : exec y v with ⟨e' | a', v'⟩ <;>
    rw [hr, hs] at hresult hrelated <;> cases hresult
  · exact ⟨rfl, hrelated⟩
  · exact hf a u' v' hrelated

theorem Agree.attempt {x y : Run α} {u v : World} (h : Agree R (exec x u) (exec y v)) :
    Agree R (exec (Session.attempt x) u) (exec (Session.attempt y) v) := by
  obtain ⟨hresult, hrelated⟩ := h
  rw [exec_attempt, exec_attempt]
  rcases hr : exec x u with ⟨e | a, u'⟩ <;> rcases hs : exec y v with ⟨e' | a', v'⟩ <;>
    rw [hr, hs] at hresult hrelated <;> cases hresult
  · dsimp only
    split
    · exact ⟨rfl, hrelated⟩
    · exact ⟨rfl, hrelated⟩
  · exact ⟨rfl, hrelated⟩

namespace Matches

/-! ## Putting computations together -/

theorem pure (a : α) : Matches R (Pure.pure a : Run α) (Pure.pure a) :=
  fun _ _ h => ⟨rfl, h⟩

theorem throw (f : Failure) :
    Matches R (MonadExcept.throw f : Run α) (MonadExcept.throw f) :=
  fun _ _ h => ⟨rfl, h⟩

theorem lift (e : Except Failure α) : Matches R (liftM e : Run α) (liftM e) :=
  fun _ _ h => ⟨rfl, h⟩

theorem bind {x y : Run α} {f g : α → Run β} (hx : Matches R x y)
    (hf : ∀ a, Matches R (f a) (g a)) : Matches R (x >>= f) (y >>= g) :=
  fun u v h => (hx u v h).bind hf

/-- What comes after two computations may be matched after both of them. -/
theorem bind₂ {γ : Type} {x y : Run α} {f g : α → Run β} {k l : β → Run γ}
    (h : Matches R (x >>= f) (y >>= g)) (hk : ∀ b, Matches R (k b) (l b)) :
    Matches R (x >>= fun a => f a >>= k) (y >>= fun a => g a >>= l) := by
  have hboth := h.bind hk
  rwa [bind_assoc, bind_assoc] at hboth

theorem attempt {x y : Run α} (hx : Matches R x y) :
    Matches R (Session.attempt x) (Session.attempt y) :=
  fun u v h => (hx u v h).attempt

theorem ensuring {x y : Run α} {last last' : Run Unit} (hx : Matches R x y)
    (hlast : Matches R last last') :
    Matches R (Session.ensuring x last) (Session.ensuring y last') :=
  fun u v h => (hx u v h).ensuring hlast

theorem forM {f g : β → Run PUnit} : ∀ {l : List β}, (∀ b ∈ l, Matches R (f b) (g b)) →
    Matches R (l.forM f) (l.forM g)
  | [], _ => Matches.pure _
  | b :: l, h => by
    show Matches R (f b >>= fun _ => l.forM f) (g b >>= fun _ => l.forM g)
    exact bind (h b List.mem_cons_self) fun _ =>
      forM fun c hc => h c (List.mem_cons_of_mem _ hc)

end Matches

/-! ## Worlds that are much the same -/

/-- A change of the world that has nothing to do with programs and the environment of processes,
with listeners and the journal. -/
def Apart (g : World → World) : Prop :=
  ∀ u programs environment roster journal,
    g { u with
      programs := programs, environment := environment, roster := roster, journal := journal } =
    { g u with
      programs := programs, environment := environment, roster := roster, journal := journal }

namespace Apart

variable {g : World → World} (h : Apart g) (u : World)
include h

private theorem self : g u = { g u with
    programs := u.programs, environment := u.environment, roster := u.roster
    journal := u.journal } := h u u.programs u.environment u.roster u.journal

theorem programs : (g u).programs = u.programs := by rw [h.self]

theorem environment : (g u).environment = u.environment := by rw [h.self]

theorem roster : (g u).roster = u.roster := by rw [h.self]

theorem journal : (g u).journal = u.journal := by rw [h.self]

end Apart

/-- Worlds that are related differ at most in their programs, their listeners and their journals.
They stay related if both get the same entry, and if both are changed in a way that has nothing to
do with these. -/
structure Likeness (R : World → World → Prop) : Prop where
  rest : ∀ {u v}, R u v →
    v = { u with programs := v.programs, roster := v.roster, journal := v.journal }
  noted : ∀ {u v}, R u v → ∀ entry, R (u.noted entry) (v.noted entry)
  changed : ∀ {u v} {g : World → World}, R u v → Apart g → R (g u) (g v)

namespace Likeness

variable (like : Likeness R)
include like

theorem note (entry : Entry) : Matches R (Session.note entry) (Session.note entry) :=
  fun _ _ h => ⟨rfl, like.noted h entry⟩

theorem raise (f : Failure) : Matches R (Session.raise f : Run α) (Session.raise f) :=
  fun _ _ h => ⟨rfl, like.noted h _⟩

theorem update {g : World → World} (hg : Apart g) : Matches R (modify g : Run Unit) (modify g) :=
  fun _ _ h => ⟨rfl, like.changed h hg⟩

/-- What reads the world has to make the same of worlds that are related. -/
theorem get_bind {f g : World → Run α}
    (h : ∀ u programs roster journal,
      R u { u with programs := programs, roster := roster, journal := journal } →
      Matches R (f u) (g { u with programs := programs, roster := roster, journal := journal })) :
    Matches R ((MonadState.get : Run World) >>= f) ((MonadState.get : Run World) >>= g) := by
  intro u v hrelated
  have hrest := like.rest hrelated
  rw [hrest] at hrelated ⊢
  exact h u _ _ _ hrelated u _ hrelated

/-! ## What the runner does itself -/

theorem say (level : Level) (message : String) (values : List Json) (extra : Members)
    (traceback : Bool) :
    Matches R (Session.say level message values extra traceback)
      (Session.say level message values extra traceback) := by
  refine like.get_bind fun u programs roster journal _ => ?_
  -- how far a record gets is read off the log and the console, which are the same in both worlds
  have hlevel : World.level { u with programs := programs, roster := roster, journal := journal } =
      u.level := rfl
  have hreach : World.reach { u with programs := programs, roster := roster, journal := journal }
      level = u.reach level := rfl
  dsimp only
  rw [hlevel, hreach]
  cases Record.refusal? (u.log.tagged extra) with
  | some refusal =>
    dsimp only
    split
    · exact .throw refusal
    · exact .pure ()
  | none =>
    dsimp only
    split
    · exact like.note _
    · exact .pure ()

theorem trace (failure : Failure) : Matches R (Session.trace failure) (Session.trace failure) :=
  like.say _ _ _ _ _

theorem sayElsewhere (logger : String) (level : Level) (message : String) (extra : Members)
    (traceback : Bool) :
    Matches R (Session.sayElsewhere logger level message extra traceback)
      (Session.sayElsewhere logger level message extra traceback) := by
  unfold Session.sayElsewhere
  split
  · exact like.note _
  · exact .pure _

theorem setStep (step : Option String) :
    Matches R (Session.setStep step) (Session.setStep step) :=
  like.update fun _ _ _ _ _ => rfl

theorem closeLog : Matches R Session.closeLog Session.closeLog :=
  like.update fun _ _ _ _ _ => rfl

theorem now : Matches R Session.now Session.now :=
  like.get_bind fun _ _ _ _ _ => .bind (like.update fun _ _ _ _ _ => rfl) fun _ => .pure _

theorem recordEvent (members : Members) :
    Matches R (Session.recordEvent members) (Session.recordEvent members) :=
  .bind like.now fun _ => like.note _

theorem mark (act : Act) : Matches R (Session.mark act) (Session.mark act) :=
  like.note _

theorem haltOf (delivery : Delivery) :
    Matches R (Session.haltOf delivery) (Session.haltOf delivery) :=
  .bind (.forM fun _ _ => .bind (like.say _ _ _ _ _) fun _ => like.trace _) fun _ => .pure _

theorem announce : Matches R Session.announce Session.announce :=
  like.get_bind fun _ _ _ _ _ => .bind (like.say _ _ _ _ _) fun _ =>
    like.get_bind fun _ _ _ _ _ => .forM fun _ _ => like.say _ _ _ _ _

theorem stampEnd : Matches R Session.stampEnd Session.stampEnd :=
  .bind (like.mark _) fun _ => .bind like.now fun _ =>
    .bind (like.update fun _ _ _ _ _ => rfl) fun _ => .pure _

theorem conclude (outcome : Outcome) (duration : String) :
    Matches R (Session.conclude outcome duration) (Session.conclude outcome duration) := by
  cases outcome with
  | success => exact like.say _ _ _ _ _
  | failure source cause =>
    exact .bind (like.say _ _ _ _ _) fun _ => .bind (like.trace _) fun _ => .throw _

/-- Hooks whose failure is logged agree if the hooks themselves do. -/
theorem attemptHooks {runner runner' : HookRunner} {event : Event} {u v : World}
    (h : Agree R (exec (runHooks runner event) u) (exec (runHooks runner' event) v)) :
    Agree R (exec (Session.attemptHooks runner event) u)
      (exec (Session.attemptHooks runner' event) v) := by
  refine h.attempt.bind fun result => ?_
  cases result with
  | ok => exact .pure _
  | error failure =>
    exact .bind (like.say _ _ _ _ _) fun _ => .bind (like.trace _) fun _ => .pure _

/-- The report matches where the recorded events are the same. -/
theorem report (hevents : ∀ u v, R u v → World.events v.journal = World.events u.journal)
    {setup setup' : Setup} (hsettings : setup'.settings = setup.settings)
    (hproject : setup'.model.project = setup.model.project) :
    Matches R (Session.report setup) (Session.report setup') := by
  unfold Session.report
  rw [hsettings, hproject]
  refine like.get_bind fun u _ _ _ _ => .bind (.lift _) fun tree =>
    like.get_bind fun v programs roster journal h => ?_
  -- the report tells the recorded events, and otherwise what is the same in both worlds
  have htext : reportText setup.model.project
      { v with programs := programs, roster := roster, journal := journal } =
      reportText setup.model.project v := by
    unfold reportText
    rw [hevents _ _ h]
  rw [htext]
  exact .bind (.lift _) fun tree => .bind (like.update fun _ _ _ _ _ => rfl) fun _ =>
    like.sayElsewhere _ _ _ _ _

theorem reportOutcome (hevents : ∀ u v, R u v → World.events v.journal = World.events u.journal)
    {setup setup' : Setup} (hsettings : setup'.settings = setup.settings)
    (hproject : setup'.model.project = setup.model.project) (setbacks : Setbacks) :
    Matches R (Session.reportOutcome setup setbacks) (Session.reportOutcome setup' setbacks) :=
  .bind (like.setStep none) fun _ => .bind (like.mark _) fun _ =>
    .bind (like.report hevents hsettings hproject) fun _ =>
    .bind (like.update fun _ _ _ _ _ => rfl) fun _ => .pure _

end Likeness

/-! ## Hooks -/

section
variable (like : Likeness R)
  (hstart : ∀ start, Matches R (startProgram start) (startProgram start))
include like hstart

theorem Likeness.runProcess (hook : Hook) (start : ProcessStart) :
    Matches R (Session.runProcess hook start) (Session.runProcess hook start) := by
  have hcode : ∀ code errors, Matches R
      (if code = 0 then Pure.pure none else do
        logErrors hook errors
        return some ⟨s!"Hook exited with code {code}: {hook.command}", some code⟩ :
        Run (Option HookFailure))
      (if code = 0 then Pure.pure none else do
        logErrors hook errors
        return some ⟨s!"Hook exited with code {code}: {hook.command}", some code⟩) := by
    intro code errors
    have hlog : Matches R (logErrors hook errors) (logErrors hook errors) := by
      unfold logErrors
      split
      · exact .pure _
      · exact like.say _ _ _ _ _
    split
    · exact .pure _
    · exact .bind hlog fun _ => .pure _
  refine .bind (hstart start) fun program => ?_
  cases program with
  | timesOut => exact .pure _
  | unstartable text => exact .pure _
  | fails failure => exact .throw failure
  | exits code output errors =>
    dsimp only
    split
    · exact .bind (.forM fun _ _ => like.say _ _ _ _ _) fun _ => hcode code errors
    · exact hcode code errors

theorem Likeness.runHook (runner : HookRunner) (event : Event) (hook : Hook) :
    Matches R (Session.runHook runner event hook) (Session.runHook runner event hook) := by
  refine .bind (like.say _ _ _ _ _) fun _ => ?_
  split
  · exact .throw _
  · refine like.get_bind fun u _ _ _ _ => .bind (like.runProcess hstart hook _) fun failure => ?_
    cases failure with
    | none => exact .pure _
    | some failure =>
      dsimp only
      split
      · exact like.say _ _ _ _ _
      · exact .throw _

/-- Hooks match where the programs that they start do. -/
theorem Likeness.runHooks (runner : HookRunner) (event : Event) :
    Matches R (Session.runHooks runner event) (Session.runHooks runner event) := by
  unfold Session.runHooks
  split
  · exact .pure _
  · dsimp only
    split
    · exact .pure _
    · exact .bind (like.say _ _ _ _ _) fun _ => .forM fun hook _ => like.runHook hstart _ _ hook

end

/-! ## The course of a session -/

/-- A likeness in which the items of a session match, and the events of the runner, the failures of
listeners being logged after them. -/
structure CourseLikeness (R : World → World → Prop) (items : List Item) : Prop
    extends Likeness R where
  start : Matches R (fireStart >>= haltOf) (fireStart >>= haltOf)
  before : ∀ item ∈ items, Matches R (fireBefore item.stage.name) (fireBefore item.stage.name)
  invoke : ∀ item ∈ items, Matches R item.invoke item.invoke
  succeeded : ∀ item ∈ items,
    Matches R (fireSucceeded item.stage.name) (fireSucceeded item.stage.name)
  failed : ∀ item ∈ items, ∀ cause,
    Matches R (fireFailed item.stage.name cause) (fireFailed item.stage.name cause)
  stop : Matches R (fireEnd >>= haltOf) (fireEnd >>= haltOf)

namespace CourseLikeness

theorem tail {item : Item} {items : List Item} (like : CourseLikeness R (item :: items)) :
    CourseLikeness R items :=
  { like with
    before := fun item h => like.before item (List.mem_cons_of_mem _ h)
    invoke := fun item h => like.invoke item (List.mem_cons_of_mem _ h)
    succeeded := fun item h => like.succeeded item (List.mem_cons_of_mem _ h)
    failed := fun item h => like.failed item (List.mem_cons_of_mem _ h) }

theorem runItems {items : List Item} (like : CourseLikeness R items) (setbacks : Setbacks) :
    Matches R (Session.runItems items setbacks) (Session.runItems items setbacks) := by
  induction items generalizing setbacks with
  | nil => exact .pure _
  | cons item items ih =>
    have hitem : item ∈ item :: items := List.mem_cons_self
    refine .bind (like.setStep _) fun _ => .bind (like.before item hitem) fun before => ?_
    cases before with
    | some halt => exact .pure _
    | none =>
      refine .bind (like.mark _) fun _ => .bind (.attempt (like.invoke item hitem)) fun result => ?_
      cases result with
      | ok =>
        refine .bind (like.succeeded item hitem) fun succeeded => ?_
        cases succeeded with
        | some halt => exact .pure _
        | none => exact ih like.tail _
      | error failure =>
        refine .bind (like.failed item hitem failure) fun failed => ?_
        obtain ⟨_ | halt, _ | _⟩ := failed
        · exact .pure _
        · exact ih like.tail _
        · exact .pure _
        · exact .pure _

variable {items : List Item} (like : CourseLikeness R items)
include like

theorem runSteps (setbacks : Setbacks) :
    Matches R (Session.runSteps items setbacks) (Session.runSteps items setbacks) :=
  .bind (.ensuring (like.runItems setbacks) (like.setStep none)) fun _ =>
    .bind (like.mark _) fun _ => .bind₂ like.stop fun _ => .pure _

/-- The runner goes from the start of the session to its end alike, if the hooks in front of the
session do alike. -/
theorem drive {runner runner' : HookRunner} {u v : World}
    (h : Agree R (exec (runHooks runner (.before sessionScope)) (u.noted (.act .beforeHooks)))
      (exec (runHooks runner' (.before sessionScope)) (v.noted (.act .beforeHooks)))) :
    Agree R (exec (Session.drive runner items) u) (exec (Session.drive runner' items) v) := by
  have hstart : Agree R (exec (startSession runner) u) (exec (startSession runner') v) := by
    refine (like.attemptHooks h).bind fun failure => ?_
    cases failure with
    | some failure => exact .pure _
    | none => exact .bind (like.mark _) fun _ => .bind₂ like.start fun _ => .pure _
  refine hstart.bind fun setbacks => ?_
  split
  · exact .pure _
  · exact like.runSteps setbacks

end CourseLikeness

/-! ## Worlds with other programs -/

/-- What sets two runs apart: the programs of each, and the entries that are hidden. The environment
that processes are started in is the same for both. -/
structure Divide where
  hidden : Entry → Bool
  first : Programs
  second : Programs
  environment : List (String × String)

/-- The entries that are not hidden. -/
def Divide.visible (d : Divide) (entries : List Entry) : List Entry :=
  entries.filter (!d.hidden ·)

/-- Worlds of the two runs that differ in nothing else. -/
structure Alike (d : Divide) (u v : World) : Prop where
  programs : u.programs = d.first
  environment : u.environment = d.environment
  rest : ∃ journal, v = { u with programs := d.second, journal := journal } ∧
    d.visible journal = d.visible u.journal

theorem Divide.visible_append {d : Divide} (entries entries' : List Entry) :
    d.visible (entries ++ entries') = d.visible entries ++ d.visible entries' :=
  List.filter_append _ _

/-- What is made of entries one by one is the same for two lists of them if it passes over those
that set them apart. -/
theorem filterMap_eq_of_filter {γ : Type} {f : Entry → Option γ} {p : Entry → Bool}
    (hpass : ∀ entry, p entry = false → f entry = none) {entries entries' : List Entry}
    (h : entries.filter p = entries'.filter p) : entries.filterMap f = entries'.filterMap f := by
  have hsome : (fun entry => if p entry = true then f entry else none) = f := by
    funext entry
    cases hentry : p entry with
    | false => rw [hpass entry hentry]; rfl
    | true => rfl
  have hfilter : ∀ entries : List Entry, (entries.filter p).filterMap f = entries.filterMap f := by
    intro entries
    rw [List.filterMap_filter, hsome]
  rw [← hfilter entries, h, hfilter]

/-- The recorded events are the same where none of them sets the lists apart. -/
theorem events_eq_of_filter {p : Entry → Bool} (hevents : ∀ members, p (.event members) = true)
    {entries entries' : List Entry} (h : entries.filter p = entries'.filter p) :
    World.events entries = World.events entries' := by
  refine filterMap_eq_of_filter (fun entry hentry => ?_) h
  cases entry with
  | event members =>
    rw [hevents members] at hentry
    cases hentry
  | _ => rfl

namespace Alike

variable {d : Divide}

theorem programs_second {u v : World} (h : Alike d u v) : v.programs = d.second := by
  obtain ⟨journal, rfl, -⟩ := h.rest
  rfl

theorem environment_second {u v : World} (h : Alike d u v) :
    v.environment = d.environment := by
  obtain ⟨journal, rfl, -⟩ := h.rest
  exact h.environment

theorem likeness : Likeness (Alike d) where
  rest h := by
    obtain ⟨journal, hv, -⟩ := h.rest
    rw [hv]
  noted h entry := by
    obtain ⟨hprograms, henvironment, journal, rfl, hjournal⟩ := h
    refine ⟨hprograms, henvironment, journal ++ [entry], rfl, ?_⟩
    unfold World.noted
    rw [Divide.visible_append, Divide.visible_append, hjournal]
  changed {u _ g} h hg := by
    obtain ⟨hprograms, henvironment, journal, rfl, hjournal⟩ := h
    refine ⟨(hg.programs u).trans hprograms, (hg.environment u).trans henvironment, journal, ?_, ?_⟩
    · rw [hg u d.second u.environment u.roster journal, hg.environment u, hg.roster u]
    · rw [hg.journal u]
      exact hjournal

/-- The listeners are the same in both worlds. -/
theorem roster (f : Roster → Roster) :
    Matches (Alike d) (modify fun w => { w with roster := f w.roster } : Run Unit)
      (modify fun w => { w with roster := f w.roster }) := by
  rintro u _ ⟨hprograms, henvironment, journal, rfl, hjournal⟩
  exact ⟨rfl, hprograms, henvironment, journal, rfl, hjournal⟩

/-- What reads the world has to make the same of worlds that are alike. -/
theorem get_bind {f g : World → Run α}
    (h : ∀ u journal, Matches (Alike d) (f u)
      (g { u with programs := d.second, journal := journal })) :
    Matches (Alike d) ((MonadState.get : Run World) >>= f)
      ((MonadState.get : Run World) >>= g) := by
  intro u v halike
  obtain ⟨-, -, journal, rfl, -⟩ := id halike
  exact h u journal u _ halike

/-! ## Listeners -/

theorem setPolicy (name : String) (tolerant : Bool) :
    Matches (Alike d) (Session.setPolicy name tolerant) (Session.setPolicy name tolerant) :=
  roster (·.setPolicy name tolerant)

theorem enlist (listener : Listener) :
    Matches (Alike d) (Session.enlist listener) (Session.enlist listener) := by
  refine get_bind fun u _ => ?_
  dsimp only
  split
  · exact .bind (roster (·.make listener)) fun _ => .throw _
  · exact roster (·.enlist listener)

theorem enrol (name : String) :
    Matches (Alike d) (Session.enrol name) (Session.enrol name) := by
  refine get_bind fun u _ => ?_
  dsimp only
  split
  · exact .throw _
  · exact roster (·.enrol name)

theorem closingAction (action : Action) :
    Matches (Alike d) (Session.closingAction action) (Session.closingAction action) := by
  cases action with
  | raise failure => exact likeness.raise failure
  | policy name tolerant => exact setPolicy name tolerant
  | _ => exact .throw _

theorem closeListener (id : Nat) :
    Matches (Alike d) (Session.closeListener id) (Session.closeListener id) := by
  refine get_bind fun u _ => ?_
  dsimp only
  cases u.roster.made[id]? with
  | none => exact .pure ()
  | some listener =>
    exact .bind (likeness.note _) fun _ => .forM fun action _ => closingAction action

theorem closeLogged (id : Nat) :
    Matches (Alike d) (Session.closeLogged id) (Session.closeLogged id) := by
  refine .bind (.attempt (closeListener id)) fun result => ?_
  cases result with
  | ok => exact .pure _
  | error f => exact get_bind fun u _ => likeness.sayElsewhere _ _ _ _ _

theorem cleanup : Matches (Alike d) Session.cleanup Session.cleanup := by
  refine get_bind fun u _ => ?_
  dsimp only
  split
  · exact .pure _
  · exact get_bind fun v _ => .bind (roster Roster.close) fun _ =>
      .forM fun id _ => closeLogged id

/-! ## Scripts and events -/

theorem act {fire : Event → Run Bool}
    (hfire : ∀ event, Matches (Alike d) (fire event) (fire event)) (action : Action) :
    Matches (Alike d) (Session.act fire action) (Session.act fire action) := by
  cases action with
  | raise failure => exact likeness.raise failure
  | log level message values extra => exact likeness.say _ _ _ _ _
  | trace failure => exact likeness.trace failure
  | step name => exact likeness.setStep _
  | reset => exact likeness.setStep _
  | closeLog => exact likeness.closeLog
  | register name tolerant properties script => exact enlist _
  | enrol name => exact enrol name
  | cleanup => exact cleanup
  | policy name tolerant => exact setPolicy name tolerant
  | dryRun value => exact likeness.update fun _ _ _ _ _ => rfl
  | filter filter name => exact likeness.update fun _ _ _ _ _ => rfl
  | fire event => exact .bind (hfire event) fun _ => likeness.note _

section
variable {fire : Event → Run Bool}
  (hfire : ∀ event, Matches (Alike d) (fire event) (fire event))
include hfire

theorem callListener (key : String) (id : Nat) (listener : Listener) :
    Matches (Alike d) (Session.callListener fire key id listener)
      (Session.callListener fire key id listener) :=
  .bind (likeness.note _) fun _ => .forM fun action _ => act hfire action

theorem deliverFrom (key : String) : ∀ (calls place : Nat) (tolerated : List ListenerFailure),
    Matches (Alike d) (Session.deliverFrom fire key calls place tolerated)
      (Session.deliverFrom fire key calls place tolerated) := by
  intro calls
  induction calls with
  | zero => exact fun _ _ => likeness.raise endless
  | succ calls ih =>
    intro place tolerated
    refine get_bind fun u _ => ?_
    dsimp only
    cases u.roster.at? place with
    | none => exact .pure _
    | some entry =>
      obtain ⟨id, listener⟩ := entry
      refine .bind (.attempt (callListener hfire key id listener)) fun result => ?_
      cases result with
      | ok => exact ih _ _
      | error cause =>
        -- the policy is read after the call, in worlds that are alike once more
        refine get_bind fun v _ => ?_
        dsimp only
        split
        · exact ih _ _
        · exact .pure _

theorem deliver (key : String) :
    Matches (Alike d) (Session.deliver fire key) (Session.deliver fire key) := by
  refine get_bind fun u _ => ?_
  dsimp only
  cases u.forced.lookup key with
  | some cause => exact .pure _
  | none =>
    dsimp only
    split
    · exact .pure _
    · exact deliverFrom hfire key _ _ _

end

theorem fireWithin : ∀ (depth : Nat) (event : Event),
    Matches (Alike d) (Session.fireWithin depth event) (Session.fireWithin depth event) := by
  intro depth
  induction depth with
  | zero => exact fun _ => likeness.raise endless
  | succ depth ih =>
    exact fun event => .bind (likeness.recordEvent _) fun _ =>
      deliver (fun event => .bind (ih event) fun _ => .pure _) _

theorem fire (event : Event) : Matches (Alike d) (Session.fire event) (Session.fire event) :=
  get_bind fun _ _ => fireWithin _ event

theorem fired (event : Event) :
    Matches (Alike d) (do return (← Session.fire event).ok : Run Bool)
      (do return (← Session.fire event).ok) :=
  .bind (fire event) fun _ => .pure _

theorem fireStart : Matches (Alike d) Session.fireStart Session.fireStart :=
  .bind (likeness.recordEvent _) fun _ => deliver fired _

theorem fireEnd : Matches (Alike d) Session.fireEnd Session.fireEnd :=
  .bind (likeness.recordEvent _) fun _ => deliver fired _

theorem invoke (item : Item) : Matches (Alike d) item.invoke item.invoke := by
  unfold Item.invoke
  split
  · exact .bind (likeness.note _) fun _ => .forM fun action _ => act fired action
  · exact likeness.say _ _ _ _ _

theorem course (items : List Item) : CourseLikeness (Alike d) items :=
  { likeness with
    start := .bind fireStart likeness.haltOf
    before := fun _ _ => .bind (likeness.mark _) fun _ => .bind (fire _) likeness.haltOf
    invoke := fun item _ => invoke item
    succeeded := fun _ _ => .bind (likeness.mark _) fun _ => .bind (fire _) likeness.haltOf
    failed := fun _ _ _ => .bind (likeness.mark _) fun _ => .bind (fire _) fun delivery =>
      .bind (likeness.haltOf delivery) fun _ => .pure _
    stop := .bind fireEnd likeness.haltOf }

/-- The recorded events are the same where none of them is hidden. -/
theorem events_eq (hevents : ∀ members, d.hidden (.event members) = false) {u v : World}
    (h : Alike d u v) : World.events v.journal = World.events u.journal := by
  obtain ⟨-, -, journal, rfl, hjournal⟩ := h
  exact events_eq_of_filter (fun members => by rw [hevents]; rfl) hjournal

end Alike

end ReleaseRunner.Session
