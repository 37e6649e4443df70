import ReleaseRunner.Proofs.Json.Members
import ReleaseRunner.Proofs.Session.Hooks

/-!
# The processes of hooks

Which hooks are meant for an event, what their processes are started with, and how far the hooks
get. The main statement is `runHooks_trials`: provided that every command has a word, the processes
that are asked for are those of a first part of the hooks that are meant, in order. It ends with the
first hook that fails without being tolerated, or whose process fails by itself, tolerated or not,
and that is what the run of the hooks then fails with; each failure that is tolerated is told in a
warning, and there are no other warnings.
-/

namespace ReleaseRunner.Config

/-- An entry with a mark is a text behind an exclamation mark. -/
theorem startsWith_mark_iff {entry : String} :
    entry.startsWith "!" = true ↔ ∃ p, entry = "!" ++ p := by
  rw [String.startsWith_string_iff]
  constructor
  · rintro ⟨rest, hrest⟩
    refine ⟨String.ofList rest, String.toList_inj.mp ?_⟩
    rw [String.toList_append, String.toList_ofList (l := rest), hrest]
  · rintro ⟨p, rfl⟩
    exact ⟨p.toList, String.toList_append.symm⟩

/-- The hook is meant for the events of a scope on a platform: the scope is not excluded, and is
included unless nothing is; and of the platform's list no entry with a mark excludes it, and one
without a mark selects it unless there is none. -/
structure Hook.Meant (hook : Hook) (scope platform : String) : Prop where
  not_excluded : scope ∉ hook.scopes.excludes
  included : hook.scopes.includes = [] ∨ scope ∈ hook.scopes.includes
  not_unwanted : ∀ p : String, "!" ++ p ∈ hook.platforms → ¬p.toList <+: platform.toList
  wanted : (∀ entry ∈ hook.platforms, ∃ p, entry = "!" ++ p) ∨
    ∃ entry ∈ hook.platforms, (∀ p, entry ≠ "!" ++ p) ∧ entry.toList <+: platform.toList

theorem ScopeFilter.admits_iff {filter : ScopeFilter} {scope : String} :
    filter.admits scope = true ↔
      scope ∉ filter.excludes ∧ (filter.includes = [] ∨ scope ∈ filter.includes) := by
  simp [ScopeFilter.admits]

theorem selectsPlatform_iff {entries : List String} {platform : String} :
    selectsPlatform entries platform = true ↔
      (∀ p : String, "!" ++ p ∈ entries → ¬p.toList <+: platform.toList) ∧
      ((∀ entry ∈ entries, ∃ p, entry = "!" ++ p) ∨
        ∃ entry ∈ entries, (∀ p, entry ≠ "!" ++ p) ∧ entry.toList <+: platform.toList) := by
  have hunmarked : ∀ entry : String, entry.startsWith "!" = false ↔ ∀ p, entry ≠ "!" ++ p := by
    intro entry
    rw [← Bool.not_eq_true, startsWith_mark_iff, not_exists]
  unfold selectsPlatform
  rw [List.partition_eq_filter_filter, Bool.and_eq_true, Bool.not_eq_true', Bool.or_eq_true]
  dsimp only
  refine and_congr ?_ (or_congr ?_ ?_)
  · rw [List.any_eq_false]
    constructor
    · intro h p hp hbegins
      refine h ("!" ++ p) (List.mem_filter.mpr ⟨hp, startsWith_mark_iff.mpr ⟨p, rfl⟩⟩) ?_
      rw [String.toList_append]
      exact List.isPrefixOf_iff_prefix.mpr hbegins
    · intro h entry hentry hbegins
      obtain ⟨hmem, hmark⟩ := List.mem_filter.mp hentry
      obtain ⟨p, rfl⟩ := startsWith_mark_iff.mp hmark
      rw [String.toList_append] at hbegins
      exact h p hmem (List.isPrefixOf_iff_prefix.mp hbegins)
  · rw [List.isEmpty_iff, List.filter_eq_nil_iff]
    refine forall₂_congr fun entry _ => ?_
    rw [Function.comp_apply, Bool.not_eq_true', Bool.not_eq_false, startsWith_mark_iff]
  · rw [List.any_eq_true]
    simp only [List.mem_filter, Function.comp_apply, Bool.not_eq_true', hunmarked, and_assoc,
      List.isPrefixOf_iff_prefix]

theorem Hook.selected_iff {hook : Hook} {scope platform : String} :
    hook.selected scope platform = true ↔ hook.Meant scope platform := by
  unfold Hook.selected
  rw [Bool.and_eq_true, ScopeFilter.admits_iff, selectsPlatform_iff]
  constructor
  · rintro ⟨⟨hnot, hin⟩, hunwanted, hwanted⟩
    exact ⟨hnot, hin, hunwanted, hwanted⟩
  · rintro ⟨hnot, hin, hunwanted, hwanted⟩
    exact ⟨⟨hnot, hin⟩, hunwanted, hwanted⟩

instance (hook : Hook) (scope platform : String) : Decidable (hook.Meant scope platform) :=
  decidable_of_iff _ Hook.selected_iff

end ReleaseRunner.Config

namespace ReleaseRunner.Session

open Config Log Text

/-! ## What a process finds in its environment -/

/-- What tells a process about the event. -/
def eventVariables (event : Event) : List (String × String) :=
  [("RELEASE_EVENT_PHASE", event.phase.name), ("RELEASE_EVENT_SCOPE", event.scope)] ++
    event.failure.toList.map fun f => ("RELEASE_FAILURE", f.text)

/-- What tells about the event comes first, then the configuration, then the runner's own. -/
theorem lookup_hookEnvironment {outside : List (String × String)}
    (h : (outside.map Prod.fst).Nodup) (hooks : Hooks) (event : Event) (name : String) :
    Json.lookup (hookEnvironment outside hooks event) name =
      ((Json.lookup (eventVariables event) name).or (Json.lookup hooks.environment name)).or
        (Json.lookup outside name) := by
  unfold hookEnvironment
  rw [Json.lookup_withMembers h, List.append_assoc, Json.lookup_append]
  rfl

/-! ## Warnings -/

/-- The messages of the warnings among entries. -/
def World.warnings (entries : List Entry) : List String :=
  entries.filterMap fun
    | .record record _ => if record.level = .warning then some record.message else none
    | _ => none

theorem World.warnings_append (a b : List Entry) :
    World.warnings (a ++ b) = World.warnings a ++ World.warnings b :=
  List.filterMap_append

/-- Nothing is warned of on the way from one world to another. -/
def Unwarned (u : World) (_ : Option Failure) (v : World) : Prop :=
  ∃ new, v.journal = u.journal ++ new ∧ World.warnings new = []

theorem Unwarned.refl (u : World) (e : Option Failure) : Unwarned u e u :=
  ⟨[], (List.append_nil _).symm, rfl⟩

theorem Unwarned.noted (u : World) (e : Option Failure) {entry : Entry}
    (h : World.warnings [entry] = []) : Unwarned u e (u.noted entry) :=
  ⟨[entry], rfl, h⟩

theorem Unwarned.law : Law Unwarned where
  refl u := .refl u none
  fail u f _ := .refl u (some f)
  trans := by
    rintro u v w e ⟨new, hnew, hnone⟩ ⟨new', hnew', hnone'⟩
    refine ⟨new ++ new', by rw [hnew', hnew, List.append_assoc], ?_⟩
    rw [World.warnings_append, hnone, hnone', List.append_nil]
  recover h _ := h

namespace Obeys

theorem say_unwarned {level : Level} (h : level ≠ .warning) (message : String)
    (values : List Json) (extra : Members) (traceback : Bool) :
    Obeys Unwarned (say level message values extra traceback) := by
  intro w
  rw [exec_say]
  split
  · exact .refl w _
  · split
    · next record hmake =>
      exact .noted w _ (by simp [World.warnings, level_of_make? hmake, h])
    · exact .refl w _

theorem runProcess_unwarned (hook : Hook) (start : ProcessStart) :
    Obeys Unwarned (runProcess hook start) := by
  have law := Unwarned.law
  have hnote : ∀ entry, World.warnings [entry] = [] → Obeys Unwarned (note entry) :=
    fun entry h w => .noted w _ h
  refine bind law ?_ fun program => ?_
  · unfold startProgram
    split
    · exact throw law rfl
    · refine get_bind fun w => bind law (hnote _ rfl) fun _ => ?_
      exact bind law (hnote _ rfl) fun _ => pure law _
  · have hinform : ∀ line, Obeys Unwarned (inform line [] [("hook", .text hook.command)]) :=
      fun line => say_unwarned (by decide) line _ _ _
    have hlast : ∀ code errors, Obeys Unwarned (do
        if code = 0 then return none
        logErrors hook errors
        return some ⟨s!"Hook exited with code {code}: {hook.command}", some code⟩ :
          Run (Option HookFailure)) := by
      intro code errors
      split
      · exact pure law _
      · refine bind law ?_ fun _ => pure law _
        unfold logErrors
        split
        · exact pure law ()
        · exact say_unwarned (by decide) _ _ _ _
    cases program with
    | timesOut => exact pure law _
    | unstartable text => exact pure law _
    | fails failure ordinary => exact throw law ordinary
    | exits code output errors =>
      dsimp only
      split
      · exact bind law (forM law fun line _ => hinform line) fun _ => hlast code errors
      · exact hlast code errors

end Obeys

/-! ## Trials -/

/-- A hook with the process that was asked for and what came of that. -/
structure Trial where
  hook : Hook
  start : ProcessStart
  program : Program

namespace Trial

/-- What is told of a trial that failed. -/
def failure? (t : Trial) : Option HookFailure := t.program.failure? t.hook

/-- The warning of a trial that failed but is tolerated. -/
def warning? (t : Trial) : Option String :=
  if t.hook.tolerant then t.failure?.map (·.problem) else none

/-- What a trial fails with that failed and is not tolerated. -/
def error (t : Trial) (failure : HookFailure) : Failure :=
  .plain (.hook t.hook.command failure.exitCode) failure.problem

/-- The trial stops the hooks with a failure: it failed, and its hook is not tolerated, or its
process failed by itself, where it does not matter whether the hook is tolerated. -/
inductive Stops (t : Trial) : Failure → Prop
  | untolerated {failure : HookFailure} (hown : t.program.own? = none)
      (hfailure : t.failure? = some failure) (htolerant : t.hook.tolerant = false) :
      Stops t (t.error failure)
  | own {failure : Failure} (hown : t.program.own? = some failure) : Stops t failure

end Trial

/-- The trial is one of the runner's: its process has the words of the hook's command, its timeout
and, under each name, what tells about the event, or else what the configuration has, or else what
the runner finds itself; and what came of it is what the program does after all that was started
before it. -/
structure Trial.Made (runner : HookRunner) (event : Event) (u : World)
    (past : List ProcessStart) (t : Trial) : Prop where
  words_eq : words t.hook.command = .ok t.start.words
  timeout_eq : t.start.timeout = t.hook.timeout
  lookup_environment : ∀ name, Json.lookup t.start.environment name =
    ((Json.lookup (eventVariables event) name).or
      (Json.lookup runner.hooks.environment name)).or (Json.lookup u.environment name)
  program_eq : t.program = u.programs.answer (World.processes u.journal ++ past) t.start

/-- Hooks were run one after the other, from a world on: the trials are those of a first part of
the hooks, in order, and the journal has their processes and the warnings of those that failed but
are tolerated. A trial that stops the hooks is the last one, and what the run fails with; otherwise
all hooks were tried. -/
structure HooksRun (runner : HookRunner) (event : Event) (u : World) (hooks : List Hook)
    (trials : List Trial) (result : Except Failure Unit) (new : List Entry) : Prop where
  initial : trials.map Trial.hook <+: hooks
  made : ∀ before t after, trials = before ++ t :: after →
    t.Made runner event u (before.map Trial.start)
  started : World.processes new = trials.map Trial.start
  warned : World.warnings new = trials.filterMap Trial.warning?
  last : ∀ before t after, trials = before ++ t :: after → ∀ f, t.Stops f → after = []
  ok_iff : result = .ok () ↔ trials.map Trial.hook = hooks ∧ ∀ t ∈ trials, ∀ f, ¬t.Stops f
  error_iff : ∀ f, result = .error f ↔ ∃ t ∈ trials, t.Stops f

/-- On the way from one world to another the processes are started and the warnings told, and
nothing but the journal changes. -/
def Leads (u : World) (starts : List ProcessStart) (warnings : List String) (v : World) : Prop :=
  ∃ new, v = { u with journal := u.journal ++ new } ∧ World.processes new = starts ∧
    World.warnings new = warnings

theorem Leads.rest {u v : World} {starts : List ProcessStart} {warnings : List String}
    (h : Leads u starts warnings v) : v = { u with journal := v.journal } := by
  obtain ⟨new, rfl, -⟩ := h
  rfl

theorem Leads.trans {u v w : World} {starts starts' : List ProcessStart}
    {warnings warnings' : List String} (h : Leads u starts warnings v)
    (h' : Leads v starts' warnings' w) : Leads u (starts ++ starts') (warnings ++ warnings') w := by
  obtain ⟨new, rfl, rfl, rfl⟩ := h
  obtain ⟨new', rfl, rfl, rfl⟩ := h'
  exact ⟨new ++ new', by simp only [List.append_assoc], World.processes_append new new',
    World.warnings_append new new'⟩

/-- Where nothing is warned of, only the processes count. -/
theorem Runs.leads {α : Type} {x : Run α} {u : World} {result : Except Failure α}
    {starts : List ProcessStart} (h : Runs x u result starts) (hx : Obeys Unwarned x) :
    ∃ v, exec x u = (result, v) ∧ Leads u starts [] v := by
  obtain ⟨v, hv, hstarts⟩ := h
  obtain ⟨new, hnew, -, hprocesses⟩ := hstarts.journal
  obtain ⟨new', hnew', hnone⟩ := hx u
  rw [hv] at hnew'
  have hsame : new = new' := List.append_cancel_left (hnew.symm.trans hnew')
  refine ⟨v, hv, new, ?_, hprocesses, hsame ▸ hnone⟩
  rw [← hnew]
  exact hstarts.rest

theorem Leads.processes {u v : World} {starts : List ProcessStart} {warnings : List String}
    (h : Leads u starts warnings v) :
    World.processes v.journal = World.processes u.journal ++ starts := by
  obtain ⟨new, rfl, rfl, -⟩ := h
  exact World.processes_append u.journal new

/-- What is told of a program is a warning if the hook is tolerated. -/
theorem leads_verdict {t : Trial} (hown : t.program.own? = none) (u : World) : ∃ v,
    exec (match t.program.failure? t.hook with
      | none => pure ()
      | some failure =>
        if t.hook.tolerant then say .warning failure.problem [] [] false
        else throw (t.error failure)) u = (t.program.verdict t.hook, v) ∧
      Leads u [] t.warning?.toList v := by
  unfold Program.verdict Trial.warning? Trial.failure?
  rw [hown]
  cases t.program.failure? t.hook with
  | none => exact ⟨u, rfl, [], by simp, rfl, by simp [World.warnings]⟩
  | some failure =>
    cases t.hook.tolerant with
    | false => exact ⟨u, rfl, [], by simp, rfl, rfl⟩
    | true =>
      obtain ⟨record, hmake, hlevel, hmessage⟩ : ∃ record : Record,
          Record.make? sessionLogger .warning failure.problem [] (u.log.tagged []) false =
            some record ∧ record.level = .warning ∧ record.message = failure.problem :=
        ⟨_, Record.make?_of_fill? (isShowable_tagged rfl u.log) rfl, rfl, rfl⟩
      refine ⟨_, exec_say_made rfl hmake, [.record record _], rfl, rfl, ?_⟩
      simp [World.warnings, hlevel, hmessage]

/-- A process that fails by itself is not told of in a warning. -/
theorem Trial.warning?_of_own {t : Trial} {f : Failure} (h : t.program.own? = some f) :
    t.warning? = none := by
  unfold warning? failure?
  cases hprogram : t.program with
  | fails failure => split <;> rfl
  | _ =>
    rw [hprogram] at h
    cases h

/-- A hook whose command has a word is tried, which ends as its program has it. -/
theorem trial_runHook (runner : HookRunner) (event : Event) {hook : Hook} {name : String}
    {rest : List String} (h : words hook.command = .ok (name :: rest)) {u : World}
    (hnames : (u.environment.map Prod.fst).Nodup) :
    ∃ (t : Trial) (v : World), t.hook = hook ∧ t.Made runner event u [] ∧
      exec (runHook runner event hook) u = (t.program.verdict hook, v) ∧
      Leads u [t.start] t.warning?.toList v := by
  let start : ProcessStart :=
    ⟨name :: rest, hookEnvironment u.environment runner.hooks event, hook.timeout⟩
  let t : Trial := ⟨hook, start, u.programs.answer (World.processes u.journal) start⟩
  have hname : start.words ≠ [] := List.cons_ne_nil _ _
  have hinform : Runs (inform "Running hook: %s" [.text hook.command] []) u (.ok ()) [] :=
    .inform rfl
  obtain ⟨v₁, hv₁, hleads₁⟩ := hinform.leads (Obeys.say_unwarned (by decide) _ _ _ _)
  have hsame : v₁.environment = u.environment ∧ v₁.programs = u.programs := by
    rw [hleads₁.rest]
    exact ⟨rfl, rfl⟩
  obtain ⟨v₂, hv₂, hleads₂⟩ := (runs_runProcess hook hname v₁).leads
    (Obeys.runProcess_unwarned hook start)
  rw [hleads₁.processes, List.append_nil, hsame.2] at hv₂
  have hmade : t.Made runner event u [] :=
    ⟨h, rfl, lookup_hookEnvironment hnames runner.hooks event, by rw [List.append_nil]⟩
  unfold Program.given at hv₂
  unfold runHook
  rw [exec_bind_ok hv₁, h]
  dsimp only
  rw [exec_bind_ok (exec_get v₁), hsame.1]
  -- a process that fails by itself leaves nothing to be told
  cases hown : t.program.own? with
  | some failure =>
    rw [show Program.own? _ = some failure from hown] at hv₂
    have hverdict : t.program.verdict hook = .error failure := by
      unfold Program.verdict
      rw [hown]
    refine ⟨t, v₂, rfl, hmade, (exec_bind_error hv₂).trans ?_, ?_⟩
    · rw [hverdict]
    · rw [Trial.warning?_of_own hown]
      exact hleads₁.trans hleads₂
  | none =>
    rw [show Program.own? _ = none from hown] at hv₂
    obtain ⟨v₃, hv₃, hleads₃⟩ := leads_verdict hown v₂
    refine ⟨t, v₃, rfl, hmade, ?_, (hleads₁.trans hleads₂).trans hleads₃⟩
    rw [exec_bind_ok hv₂]
    exact hv₃

/-- A trial lets the hooks go on, or it stops them. -/
theorem Trial.verdict_cases (t : Trial) :
    (t.program.verdict t.hook = .ok () ∧ ∀ f, ¬t.Stops f) ∨
      ∃ f, t.Stops f ∧ t.program.verdict t.hook = .error f := by
  unfold Program.verdict
  split
  · next failure hown => exact .inr ⟨failure, .own hown, rfl⟩
  · next hown hnone =>
    refine .inl ⟨rfl, fun f hstops => ?_⟩
    cases hstops with
    | untolerated _ hfailure => cases hnone.symm.trans hfailure
    | own hfails => cases hown.symm.trans hfails
  · next failure hown hfailure =>
    cases htolerant : t.hook.tolerant with
    | true =>
      refine .inl ⟨rfl, fun f hstops => ?_⟩
      cases hstops with
      | untolerated _ _ hnot => cases htolerant.symm.trans hnot
      | own hfails => cases hown.symm.trans hfails
    | false => exact .inr ⟨_, .untolerated hown hfailure htolerant, rfl⟩

/-- A trial stops the hooks with one failure. -/
theorem Trial.Stops.unique {t : Trial} {f g : Failure} (h : t.Stops f) (h' : t.Stops g) :
    f = g := by
  cases h with
  | untolerated hown hfailure =>
    cases h' with
    | untolerated _ hfailure' => cases hfailure.symm.trans hfailure'; rfl
    | own hown' => cases hown.symm.trans hown'
  | own hown =>
    cases h' with
    | untolerated hown' => cases hown.symm.trans hown'
    | own hown' => exact Option.some.inj (hown.symm.trans hown')

namespace HooksRun

variable {runner : HookRunner} {event : Event} {u : World} {hook : Hook} {hooks : List Hook}
  {t : Trial} {new : List Entry}

theorem nil (runner : HookRunner) (event : Event) (u : World) :
    HooksRun runner event u [] [] (.ok ()) [] where
  initial := List.prefix_rfl
  made := by simp
  started := rfl
  warned := rfl
  last := by simp
  ok_iff := by simp
  error_iff := by simp

/-- The trial of the first hook stops the others. -/
theorem stop (hmade : t.Made runner event u []) (hstarted : World.processes new = [t.start])
    (hwarned : World.warnings new = t.warning?.toList) {f : Failure} (hstops : t.Stops f)
    (hooks : List Hook) : HooksRun runner event u (t.hook :: hooks) [t] (.error f) new where
  initial := ⟨hooks, rfl⟩
  made before t' after h := by
    rcases List.cons_eq_append_iff.mp h with ⟨rfl, hfirst⟩ | ⟨before', -, hnil⟩
    · cases hfirst
      exact hmade
    · simp at hnil
  started := hstarted
  warned := by
    rw [hwarned]
    cases hwarning : t.warning? <;> simp [hwarning]
  last before t' after h _ _ := by
    rcases List.cons_eq_append_iff.mp h with ⟨rfl, hfirst⟩ | ⟨before', -, hnil⟩
    · cases hfirst
      rfl
    · simp at hnil
  ok_iff := by
    constructor
    · intro h
      cases h
    · rintro ⟨-, hnone⟩
      exact absurd hstops (hnone t (List.mem_singleton_self t) f)
  error_iff g := by
    constructor
    · intro h
      cases h
      exact ⟨t, List.mem_singleton_self t, hstops⟩
    · rintro ⟨t', hmem, hstops'⟩
      rw [List.mem_singleton.mp hmem] at hstops'
      rw [hstops.unique hstops']

/-- The trial of the first hook lets the others go on, from the world that it leaves. -/
theorem cons (hmade : t.Made runner event u []) (hgo : ∀ f, ¬t.Stops f) {v : World}
    (hleads : Leads u [t.start] t.warning?.toList v) {trials : List Trial}
    {result : Except Failure Unit} (h : HooksRun runner event v hooks trials result new) :
    ∃ all, v.journal ++ new = u.journal ++ all ∧
      HooksRun runner event u (t.hook :: hooks) (t :: trials) result all := by
  have hpast := hleads.processes
  obtain ⟨first, rfl, hstarted, hwarned⟩ := hleads
  refine ⟨first ++ new, List.append_assoc _ _ _, ?_, ?_, ?_, ?_, ?_, ?_, ?_⟩
  · exact List.cons_prefix_cons.mpr ⟨rfl, h.initial⟩
  · intro before t' after hparts
    rcases List.cons_eq_append_iff.mp hparts with ⟨rfl, hfirst⟩ | ⟨before', rfl, hrest⟩
    · cases hfirst
      exact hmade
    · -- to the processes of the world, that of the first trial has been added
      obtain ⟨hwords, htimeout, hnames, hprogram⟩ := h.made before' t' after hrest
      refine ⟨hwords, htimeout, hnames, ?_⟩
      rw [hprogram, hpast, List.append_assoc]
      rfl
  · rw [World.processes_append, hstarted, h.started]
    rfl
  · rw [World.warnings_append, hwarned, h.warned]
    cases hwarning : t.warning? <;> simp [hwarning]
  · intro before t' after hparts f hstops
    rcases List.cons_eq_append_iff.mp hparts with ⟨rfl, hfirst⟩ | ⟨before', rfl, hrest⟩
    · cases hfirst
      exact absurd hstops (hgo f)
    · exact h.last before' t' after hrest f hstops
  · rw [h.ok_iff, List.map_cons, List.forall_mem_cons]
    simp [hgo]
  · intro f
    rw [h.error_iff]
    constructor
    · rintro ⟨t', hmem, hstops⟩
      exact ⟨t', List.mem_cons_of_mem t hmem, hstops⟩
    · rintro ⟨t', hmem, hstops⟩
      rcases List.mem_cons.mp hmem with rfl | hmem
      · exact absurd hstops (hgo f)
      · exact ⟨t', hmem, hstops⟩

/-- What is logged before the hooks are run is neither a process nor a warning. -/
theorem after {v : World} (hleads : Leads u [] [] v) {trials : List Trial}
    {result : Except Failure Unit} (h : HooksRun runner event v hooks trials result new) :
    ∃ all, v.journal ++ new = u.journal ++ all ∧
      HooksRun runner event u hooks trials result all := by
  have hpast := hleads.processes
  obtain ⟨first, rfl, hstarted, hwarned⟩ := hleads
  rw [List.append_nil] at hpast
  refine ⟨first ++ new, List.append_assoc _ _ _, h.initial, ?_, ?_, ?_, h.last, h.ok_iff,
    h.error_iff⟩
  · intro before t after hparts
    obtain ⟨hwords, htimeout, hnames, hprogram⟩ := h.made before t after hparts
    exact ⟨hwords, htimeout, hnames, by rw [hprogram, hpast]⟩
  · rw [World.processes_append, hstarted, h.started, List.nil_append]
  · rw [World.warnings_append, hwarned, h.warned, List.nil_append]

end HooksRun

/-- Hooks that are run one after the other have their trials. -/
theorem hooksRun_forM (runner : HookRunner) (event : Event) :
    ∀ (hooks : List Hook) (u : World), (u.environment.map Prod.fst).Nodup →
      (∀ hook ∈ hooks, ∃ name rest, words hook.command = .ok (name :: rest)) →
      ∃ trials result new, exec (hooks.forM (runHook runner event)) u =
          (result, { u with journal := u.journal ++ new }) ∧
        HooksRun runner event u hooks trials result new := by
  intro hooks
  induction hooks with
  | nil => exact fun u _ _ => ⟨[], .ok (), [], by simp [exec_pure], .nil runner event u⟩
  | cons hook hooks ih =>
    intro u hnames hwords
    obtain ⟨⟨name, rest, hhook⟩, hrest⟩ := List.forall_mem_cons.mp hwords
    obtain ⟨t, v, rfl, hmade, hv, hleads⟩ := trial_runHook runner event hhook hnames
    have hcons : (t.hook :: hooks).forM (runHook runner event) =
        runHook runner event t.hook >>= fun _ => hooks.forM (runHook runner event) := rfl
    rw [hcons]
    rcases t.verdict_cases with ⟨hverdict, hgo⟩ | ⟨failure, hstops, hverdict⟩
    · rw [hverdict] at hv
      have hsame := hleads.rest
      obtain ⟨trials, result, new, hexec, hrun⟩ := ih v (by rw [hsame]; exact hnames) hrest
      obtain ⟨all, hall, hrun⟩ := hrun.cons hmade hgo hleads
      refine ⟨t :: trials, result, all, ?_, hrun⟩
      rw [exec_bind_ok hv, hexec, hall, hsame]
    · rw [hverdict] at hv
      obtain ⟨new, rfl, hstarted, hwarned⟩ := hleads
      exact ⟨[t], _, new, exec_bind_error hv, .stop hmade hstarted hwarned hstops hooks⟩

/-- The hooks of an event's phase that are meant for its scope and the runner's platform. -/
def HookRunner.meant (runner : HookRunner) (event : Event) : List Hook :=
  (runner.hooks.ofPhase event.phase).filter fun hook => hook.Meant event.scope runner.platform

theorem HookRunner.select_eq_meant (runner : HookRunner) (event : Event) :
    runner.select event = runner.meant event := by
  unfold select meant
  rw [HookRunner.ofPhase_eq]
  refine List.filter_congr fun hook _ => ?_
  rw [Bool.eq_iff_iff, Hook.selected_iff, decide_eq_true_iff]

/-- Nothing happens while hooks are disabled, or where none is meant for the event. Otherwise those
that are meant are run, if each command has a word. -/
theorem runHooks_trials {runner : HookRunner} (event : Event) {w : World}
    (hnames : (w.environment.map Prod.fst).Nodup)
    (hwords : ∀ hook ∈ runner.hooks.ofPhase event.phase,
      ∃ name rest, words hook.command = .ok (name :: rest)) :
    (runner.hooks.enabled = false ∨ runner.meant event = [] →
      exec (runHooks runner event) w = (.ok (), w)) ∧
    (runner.hooks.enabled = true → runner.meant event ≠ [] →
      ∃ trials result new, exec (runHooks runner event) w =
          (result, { w with journal := w.journal ++ new }) ∧
        HooksRun runner event w (runner.meant event) trials result new) := by
  unfold runHooks
  rw [HookRunner.select_eq_meant]
  cases runner.hooks.enabled with
  | false => exact ⟨fun _ => rfl, fun h => by cases h⟩
  | true =>
    refine ⟨fun h => ?_, fun _ hsome => ?_⟩
    · rcases h with h | h
      · cases h
      · rw [h]
        rfl
    · rw [← List.isEmpty_eq_false_iff] at hsome
      simp only [Bool.not_true, Bool.false_eq_true, if_false, hsome]
      have hinform : Runs (inform "Executing %s hooks" [.text event.phase.name]
          [("scope", .text event.scope), ("count", .int (runner.meant event).length)]) w
          (.ok ()) [] :=
        .inform rfl
      obtain ⟨v, hv, hleads⟩ := hinform.leads (Obeys.say_unwarned (by decide) _ _ _ _)
      have hsame := hleads.rest
      obtain ⟨trials, result, new, hexec, hrun⟩ := hooksRun_forM runner event
        (runner.meant event) v (by rw [hsame]; exact hnames)
        fun hook hhook => hwords hook (List.mem_filter.mp hhook).1
      obtain ⟨all, hall, hrun⟩ := hrun.after hleads
      refine ⟨trials, result, all, ?_, hrun⟩
      rw [exec_bind_ok hv, hexec, hall, hsame]

/-- A runner with four hooks before a session, one of them for another platform and the first one
tolerated. -/
def fourHooks : HookRunner where
  platform := "linux"
  hooks := ⟨true, [("STAGE", "test")],
    [⟨"sleep 9", ⟨[], []⟩, true, false, [], none⟩,
      ⟨"del out", ⟨[], []⟩, false, false, ["win", "!linux"], none⟩,
      ⟨"make 'check all'", ⟨["session"], []⟩, false, false, ["linux"], none⟩,
      ⟨"make out", ⟨[], []⟩, false, false, [], none⟩], [], []⟩

/-- The first hook takes too long, which is tolerated; the second is not meant for the platform;
the third fails, so that the last is not run. -/
theorem runHooks_trials_fourHooks :
    (∀ hook ∈ fourHooks.hooks.ofPhase .before,
      ∃ name rest, words hook.command = .ok (name :: rest)) ∧
    ∃ w : World, (w.environment.map Prod.fst).Nodup ∧ ∃ trials new,
      exec (runHooks fourHooks (.before sessionScope)) w =
        (.error (.plain (.hook "make 'check all'" (some 2))
          "Hook exited with code 2: make 'check all'"), { w with journal := w.journal ++ new }) ∧
      HooksRun fourHooks (.before sessionScope) w (fourHooks.meant (.before sessionScope)) trials
        (.error (.plain (.hook "make 'check all'" (some 2))
          "Hook exited with code 2: make 'check all'")) new := by
  let w : World := { World.withListeners [] with
    environment := [("PATH", "/bin"), ("STAGE", "none")]
    programs := .named fun name => if name = "make" then .exits 2 "" "" else .timesOut }
  have hwords : ∀ hook ∈ fourHooks.hooks.ofPhase .before,
      ∃ name rest, words hook.command = .ok (name :: rest) := by
    intro hook hhook
    simp only [fourHooks, Hooks.ofPhase, List.mem_cons, List.not_mem_nil, or_false] at hhook
    rcases hhook with rfl | rfl | rfl | rfl
    · exact ⟨"sleep", ["9"], by decide +kernel⟩
    · exact ⟨"del", ["out"], by decide +kernel⟩
    · exact ⟨"make", ["check all"], by decide +kernel⟩
    · exact ⟨"make", ["out"], by decide +kernel⟩
  have hnames : (w.environment.map Prod.fst).Nodup := by decide
  have hmeant : fourHooks.meant (.before sessionScope) ≠ [] := by decide +kernel
  obtain ⟨trials, result, new, hexec, hrun⟩ :=
    (runHooks_trials (.before sessionScope) hnames hwords).2 rfl hmeant
  have hresult : (exec (runHooks fourHooks (.before sessionScope)) w).1 =
      .error (.plain (.hook "make 'check all'" (some 2))
        "Hook exited with code 2: make 'check all'") := by
    decide +kernel
  rw [hexec] at hresult
  subst hresult
  exact ⟨hwords, w, hnames, trials, new, hexec, hrun⟩

/-- One hook before a session that runs on one platform only and is tolerated, with variables. -/
def oneHook (environment : List (String × String)) : Hooks :=
  ⟨true, environment, [⟨"make", ⟨[], []⟩, true, false, ["linux"], none⟩], [], []⟩

/-- Where an empty platform is given, a hook is run that is not meant for it. And a hook that is
tolerated ends the run of the hooks with a failure if a variable has a name that no process can
have, or if its process prints what is no text. -/
theorem runHooks_escaping :
    ((∀ hook ∈ (oneHook []).ofPhase .before, ¬hook.Meant sessionScope "") ∧
      World.calls (exec (runHooks (.on (oneHook []) (some "")) (.before sessionScope))
        (.withListeners [])).2.journal = ["process:make"]) ∧
    (∀ environment, ∀ hook ∈ (oneHook environment).ofPhase .before, hook.tolerant = true) ∧
    (∃ program : String → Program, program "make" = .exits 0 "" "" ∧
      (exec (runHooks (.on (oneHook [("A=B", "")]) none) (.before sessionScope))
        { World.withListeners [] with programs := .installed program }).1 =
          .error (.plain .value "illegal environment variable name")) ∧
    ∃ (program : String → Program) (text : String),
      program "make" = .fails (.plain .undecodable text) rfl ∧
      (exec (runHooks (.on (oneHook []) none) (.before sessionScope))
        { World.withListeners [] with programs := .installed program }).1 =
          .error (.plain .undecodable text) := by
  let text := "'utf-8' codec can't decode byte 0xff in position 0: invalid start byte"
  have hmeant : ∀ hook ∈ (oneHook []).ofPhase .before, ¬hook.Meant sessionScope "" := by
    decide +kernel
  refine ⟨⟨hmeant, by decide +kernel⟩, fun _ hook hhook => ?_,
    ⟨fun _ => .exits 0 "" "", rfl, by decide +kernel⟩,
    ⟨fun _ => .fails (.plain .undecodable text) rfl, text, rfl, by decide +kernel⟩⟩
  rw [List.mem_singleton.mp hhook]

end ReleaseRunner.Session
