import ReleaseRunner.Proofs.Session.Hooks
import ReleaseRunner.Proofs.Session.Likeness

/-!
# What closing hooks cannot change

The hooks that close a session run after its outcome is known. Whichever they are and whatever their
programs do, the run is the same but for the records and the processes of hooks: the main statement
is `execute_closingWith`. The hooks in front of the session take the same course in two runs if what
comes of the processes that they start is the same (`SameBefore`), and the closing ones only write
into the journal and never fail the run, whatever course they take.
-/

namespace ReleaseRunner.Session

open Config Log

variable {α : Type}

/-! ## Hooks side by side -/

/-- The programs of two runs, for which nothing that hooks note is looked at. -/
def Divide.ofHooks (w : World) (programs : Programs) : Divide where
  hidden := Entry.isOfHooks
  first := w.programs
  second := programs
  environment := w.environment

section
variable {w : World} {programs : Programs}

theorem Starts.visible {u v : World} {starts : List ProcessStart} (h : Starts u starts v) :
    (Divide.ofHooks w programs).visible v.journal =
      (Divide.ofHooks w programs).visible u.journal := by
  obtain ⟨new, hnew, hhooks, -⟩ := h.journal
  have hnone : (Divide.ofHooks w programs).visible new = [] := by
    refine List.filter_eq_nil_iff.mpr fun entry hentry => ?_
    simp [Divide.ofHooks, hhooks entry hentry]
  rw [hnew, Divide.visible_append, hnone, List.append_nil]

/-- Hooks that end alike leave worlds that are alike, whatever they start. -/
theorem Alike.runs {u v : World} (h : Alike (.ofHooks w programs) u v) {x y : Run α}
    {result : Except Failure α} {starts starts' : List ProcessStart}
    (hx : Runs x u result starts) (hy : Runs y v result starts') :
    Agree (Alike (.ofHooks w programs)) (exec x u) (exec y v) := by
  obtain ⟨u', hu, hstarts⟩ := hx
  obtain ⟨v', hv, hstarts'⟩ := hy
  obtain ⟨hprograms, henvironment, journal, rfl, hjournal⟩ := h
  rw [hu, hv]
  refine ⟨rfl, hstarts.programs.trans hprograms, hstarts.environment.trans henvironment,
    v'.journal, ?_, ?_⟩
  · rw [hstarts'.rest, hstarts.rest]
  · rw [hstarts'.visible, hstarts.visible, hjournal]

end

/-! ## The closing hooks -/

/-- The closing hooks match any others, whatever the programs do. -/
theorem matches_runClosingHooks {w : World} {programs : Programs} (runner runner' : HookRunner)
    (outcome : Outcome) :
    Matches (Alike (.ofHooks w programs)) (Session.runClosingHooks runner outcome)
      (Session.runClosingHooks runner' outcome) := by
  unfold Session.runClosingHooks
  cases outcome.closingHooks with
  | none => exact .pure ()
  | some phase =>
    exact .bind (Alike.likeness.mark _) fun _ u v h =>
      h.runs (runs_discard runner _ u) (runs_discard runner' _ v)

/-! ## The hooks in front of the session -/

/-- The setup with other hooks to close the session. -/
def Setup.closingWith (setup : Setup) (success failure : List Hook) : Setup :=
  { setup with
    model := { setup.model with
      hooks := { setup.model.hooks with success := success, failure := failure } } }

/-- The hooks of a setup, run on a platform. -/
def Setup.runner (setup : Setup) (platform : String) : HookRunner :=
  .ofModel setup.model platform

/-- The programs do the same for each process that the hooks in front of the session start, after
what was started before it. -/
def SameBefore (setup : Setup) (platform : String) (w : World) (programs : Programs) : Prop :=
  ∀ before start after,
    ((setup.runner platform).course w.programs w.environment (.before sessionScope)
      (World.processes w.journal) ((setup.runner platform).due (.before sessionScope))).2 =
      before ++ start :: after →
    programs.answer (World.processes w.journal ++ before) start =
      w.programs.answer (World.processes w.journal ++ before) start

section
variable {setup : Setup} {platform : String} {w : World} {programs : Programs}
  {success failure : List Hook}

/-- The hooks in front of the session take the same course. -/
theorem agree_beforeHooks (h : SameBefore setup platform w programs) {u v : World}
    (halike : Alike (.ofHooks w programs) u v)
    (hu : World.processes u.journal = World.processes w.journal)
    (hv : World.processes v.journal = World.processes w.journal) :
    Agree (Alike (.ofHooks w programs))
      (exec (runHooks (setup.runner platform) (.before sessionScope)) u)
      (exec (runHooks ((setup.closingWith success failure).runner platform)
        (.before sessionScope)) v) := by
  have hstart : ∀ hook,
      ((setup.closingWith success failure).runner platform).start? w.environment
        (.before sessionScope) hook =
      (setup.runner platform).start? w.environment (.before sessionScope) hook := fun _ => rfl
  have hdue : ((setup.closingWith success failure).runner platform).due (.before sessionScope) =
      (setup.runner platform).due (.before sessionScope) := rfl
  have hrun := runs_runHooks (setup.runner platform) (.before sessionScope) u
  have hrun' := runs_runHooks ((setup.closingWith success failure).runner platform)
    (.before sessionScope) v
  have hprograms : u.programs = w.programs ∧ v.programs = programs :=
    ⟨halike.programs, halike.programs_second⟩
  have henvironment : u.environment = w.environment ∧ v.environment = w.environment :=
    ⟨halike.environment, halike.environment_second⟩
  rw [hu, hprograms.1, henvironment.1] at hrun
  -- what comes of the processes that they start is the same
  rw [hv, hprograms.2, henvironment.2, hdue, HookRunner.course_congr hstart _ _ h] at hrun'
  exact halike.runs hrun hrun'

/-! ## The session -/

/-- The runner sees to its own affairs without starting a process. -/
theorem Aside.processes {u v : World} (h : Aside u v) :
    World.processes v.journal = World.processes u.journal := by
  obtain ⟨new, hnew, hrecords⟩ := h.journal
  have hnone : World.processes new = [] := by
    refine List.filterMap_eq_nil_iff.mpr fun entry hentry => ?_
    obtain ⟨record, rfl⟩ := hrecords entry hentry
    rfl
  rw [hnew, World.processes_append, hnone, List.append_nil]

/-- The runner goes from the start of the session to its end alike. -/
theorem agree_drive (h : SameBefore setup platform w programs) {u v : World}
    (halike : Alike (.ofHooks w programs) u v)
    (hu : World.processes u.journal = World.processes w.journal)
    (hv : World.processes v.journal = World.processes w.journal) (items : List Item) :
    Agree (Alike (.ofHooks w programs)) (exec (drive (setup.runner platform) items) u)
      (exec (drive ((setup.closingWith success failure).runner platform) items) v) := by
  have hmark : ∀ u : World, World.processes (u.noted (.act .beforeHooks)).journal =
      World.processes u.journal := by
    intro u
    unfold World.noted
    rw [World.processes_append]
    exact List.append_nil _
  have hnoted : Alike (.ofHooks w programs) (u.noted (.act .beforeHooks))
      (v.noted (.act .beforeHooks)) := Alike.likeness.noted halike _
  exact (Alike.course items).drive
    (agree_beforeHooks h hnoted ((hmark u).trans hu) ((hmark v).trans hv))

/-- What the runner does after the end of the session matches, whichever hooks close it. -/
theorem matches_ending (runner runner' : HookRunner) (start : Instant) (setbacks : Setbacks) :
    Matches (Alike (.ofHooks w programs)) (ending setup runner start setbacks)
      (ending (setup.closingWith success failure) runner' start setbacks) :=
  .bind Alike.likeness.stampEnd fun _ =>
    .bind (Alike.likeness.reportOutcome (fun _ _ => Alike.events_eq fun _ => rfl) rfl rfl setbacks)
      fun outcome => .bind (matches_runClosingHooks runner runner' outcome) fun _ =>
    Alike.likeness.conclude outcome _

theorem agree_runSession (h : SameBefore setup platform w programs) (items : List Item) :
    Agree (Alike (.ofHooks w programs)) (exec (runSession setup (setup.runner platform) items) w)
      (exec (runSession (setup.closingWith success failure)
        ((setup.closingWith success failure).runner platform) items)
        { w with programs := programs }) := by
  have halike : Alike (.ofHooks w programs) w.opened
      (World.opened { w with programs := programs }) := ⟨rfl, rfl, w.journal, rfl, rfl⟩
  obtain ⟨u, hu, haside⟩ := Murmurs.announce w.opened
  obtain ⟨v, hv, haside'⟩ := Murmurs.announce (World.opened { w with programs := programs })
  have hannounced : Alike (.ofHooks w programs) u v := by
    have hboth := (Alike.likeness.announce _ _ halike).2
    rwa [hu, hv] at hboth
  rw [exec_runSession, exec_runSession, exec_bind_ok hu, exec_bind_ok hv]
  exact (agree_drive h hannounced haside.processes haside'.processes items).bind
    fun setbacks => matches_ending _ _ w.clock.next setbacks

theorem agree_execute (h : SameBefore setup platform w programs) (items : List Item) :
    Agree (Alike (.ofHooks w programs)) (exec (execute setup (setup.runner platform) items) w)
      (exec (execute (setup.closingWith success failure)
        ((setup.closingWith success failure).runner platform) items)
        { w with programs := programs }) :=
  ((agree_runSession h items).ensuring
    (.bind (Alike.likeness.mark _) fun _ => Alike.cleanup)).ensuring
    (.bind (Alike.likeness.mark _) fun _ => Alike.likeness.closeLog)

end

/-! ## The run as a whole -/

/-- The call of a handler or a listener that an entry is about. -/
def Entry.pluginCall? : Entry → Option Call
  | .call (.process _) => none
  | .call c => some c
  | _ => none

/-- The calls of handlers and listeners among entries. -/
def World.pluginCalls (entries : List Entry) : List Call := entries.filterMap Entry.pluginCall?

/-- What two runs come to is the same but for what hooks note: the calls of handlers and listeners
in their order, the recorded events, the files with the report among them, the outcome, and what the
run ends with. -/
structure SameRun (run other : Except Failure Unit × World) : Prop where
  calls : World.pluginCalls other.2.journal = World.pluginCalls run.2.journal
  events : World.events other.2.journal = World.events run.2.journal
  files : other.2.tree = run.2.tree
  outcome : other.2.outcome = run.2.outcome
  result : other.1 = run.1

theorem Agree.sameRun {w : World} {programs : Programs} {run other : Except Failure Unit × World}
    (h : Agree (Alike (.ofHooks w programs)) run other) : SameRun run other := by
  obtain ⟨hresult, halike⟩ := h
  obtain ⟨-, -, journal, hother, hjournal⟩ := id halike
  have hpass : ∀ entry : Entry, (!entry.isOfHooks) = false → entry.pluginCall? = none := by
    intro entry hentry
    cases entry with
    | call call =>
      cases call with
      | process name => rfl
      | _ => cases hentry
    | _ => rfl
  refine ⟨?_, halike.events_eq fun _ => rfl, ?_, ?_, hresult⟩
  · rw [hother]
    exact filterMap_eq_of_filter hpass hjournal
  · rw [hother]
  · rw [hother]

/-- Closing hooks cannot influence a run, whichever they are and whatever their programs do, as long
as what comes of the hooks in front of the session is the same. -/
theorem execute_closingWith {setup : Setup} {platform : String} {w : World} {programs : Programs}
    (h : SameBefore setup platform w programs) (items : List Item) (success failure : List Hook) :
    SameRun (exec (execute setup (setup.runner platform) items) w)
      (exec (execute (setup.closingWith success failure)
        ((setup.closingWith success failure).runner platform) items)
        { w with programs := programs }) :=
  (agree_execute h items).sameRun

/-- A hook that is not tolerated. -/
def strict (command : String) : Hook := ⟨command, ⟨[], []⟩, false, false, [], none⟩

/-- The program to deploy may not be there, and a command for after a failure may not even be split:
the session succeeds, as it does without closing hooks. -/
theorem execute_closingWith_deploy : ∃ (setup : Setup) (w : World) (programs : Programs),
    SameBefore setup "linux" w programs ∧
    SameRun (exec (execute setup (setup.runner "linux") []) w)
      (exec (execute (setup.closingWith [strict "deploy"] [strict "echo 'oops"])
        ((setup.closingWith [strict "deploy"] [strict "echo 'oops"]).runner "linux") [])
        { w with programs := programs }) := by
  let setup : Setup := {
    model := ⟨⟨"demo", "1.0.0", "SEMVER"⟩, ⟨true, [], [strict "build"], [], []⟩, []⟩
    settings := ⟨.info, ⟨.here, ["out"]⟩, false, ⟨.here, ["release.json"]⟩⟩ }
  let w : World := { World.withListeners [] with
    programs := .named fun _ => .exits 0 "" "" }
  let programs : Programs := .named fun name =>
    if name = "build" then .exits 0 "" "" else .unstartable "No such file or directory"
  have hsame : SameBefore setup "linux" w programs := by
    intro before start after h
    have hstarts : ((setup.runner "linux").course w.programs w.environment (.before sessionScope)
        (World.processes w.journal) ((setup.runner "linux").due (.before sessionScope))).2.map
        (·.words) = [["build"]] := by decide +kernel
    have hwords : start.words = ["build"] := by
      rw [h, List.map_append, List.map_cons] at hstarts
      have hmem : start.words ∈ [["build"]] := by
        rw [← hstarts]
        simp
      exact List.mem_singleton.mp hmem
    show (Programs.named _).answer _ start = (Programs.named _).answer _ start
    unfold Programs.named
    simp only [hwords, if_true]
  exact ⟨setup, w, programs, hsame, execute_closingWith hsame [] _ _⟩

end ReleaseRunner.Session
