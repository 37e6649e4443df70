import ReleaseRunner.Proofs.Session.HookProcesses
import ReleaseRunner.Proofs.Session.Lifecycle

/-!
# The failure that hooks are told of

Hooks are started right after the act of the runner that announces them, so what a process is told
can be compared with that act (`Prompted`). The process of a hook that closes a failed session is
told the cause of the outcome. The other hooks are told nothing by the runner: what they find under
that name is what the configuration or the runner's own environment has there. This is the main
statement, `execute_hookFailures`.
-/

namespace ReleaseRunner.Session

open Config Log

/-! ## Processes and what prompts them -/

/-- Each process is started after an act of the runner, and is as `told` says of the last one. -/
def Prompted (told : Act → ProcessStart → Prop) (entries : List Entry) : Prop :=
  ∀ before start after, entries = before ++ .process start :: after →
    ∃ act, (World.acts before).getLast? = some act ∧ told act start

section
variable {told : Act → ProcessStart → Prop}

theorem prompted_of_processless {entries : List Entry}
    (h : ∀ start, .process start ∉ entries) : Prompted told entries := by
  rintro before start after rfl
  exact absurd (by simp) (h start)

theorem Prompted.append {entries more : List Entry} (h : Prompted told entries)
    (hmore : Prompted told more) : Prompted told (entries ++ more) := by
  intro before start after heq
  rcases List.append_eq_append_iff.mp heq with ⟨between, rfl, hmore'⟩ | ⟨between, hentries, hafter⟩
  · obtain ⟨act, hlast, htold⟩ := hmore _ _ _ hmore'
    refine ⟨act, ?_, htold⟩
    rw [World.acts_append, List.getLast?_append, hlast]
    rfl
  · cases between with
    | nil =>
      -- the process is the first of those that follow
      rw [List.append_nil] at hentries
      obtain ⟨act, hlast, -⟩ := hmore [] start after hafter.symm
      cases hlast
    | cons entry between =>
      obtain ⟨rfl, -⟩ := List.cons.inj hafter
      exact h before start between hentries

/-- The hooks of an act are started after it. -/
theorem prompted_cons {act : Act} {entries : List Entry} (hacts : World.acts entries = [])
    (h : ∀ start ∈ World.processes entries, told act start) :
    Prompted told (.act act :: entries) := by
  intro before start after heq
  cases before with
  | nil => cases heq
  | cons entry before =>
    obtain ⟨rfl, hentries⟩ := List.cons.inj heq
    rw [List.append_eq] at hentries
    subst hentries
    rw [World.acts_append] at hacts
    refine ⟨act, ?_, h start (by simp [World.processes])⟩
    show (act :: World.acts before).getLast? = some act
    rw [(List.append_eq_nil_iff.mp hacts).1]
    rfl

end

/-- What is started on the way is prompted by acts on the way, in an environment that stays as it
is. -/
def Prompts (outside : List (String × String)) (told : Act → ProcessStart → Prop) (u : World)
    (_ : Option Failure) (v : World) : Prop :=
  u.environment = outside → v.environment = outside ∧
    ∃ new, v.journal = u.journal ++ new ∧ Prompted told new

section
variable {outside : List (String × String)} {told : Act → ProcessStart → Prop}

theorem Prompts.refl (w : World) (e : Option Failure) : Prompts outside told w e w :=
  fun henvironment => ⟨henvironment, [], by simp, prompted_of_processless (by simp)⟩

theorem Prompts.trans {u v w : World} {e e' e'' : Option Failure} (h : Prompts outside told u e v)
    (h' : Prompts outside told v e' w) : Prompts outside told u e'' w := by
  intro henvironment
  obtain ⟨henvironment, new, hnew, hprompted⟩ := h henvironment
  obtain ⟨henvironment, new', hnew', hprompted'⟩ := h' henvironment
  refine ⟨henvironment, new ++ new', ?_, hprompted.append hprompted'⟩
  rw [hnew', hnew, List.append_assoc]

theorem Prompts.noted (w : World) (e : Option Failure) {entry : Entry}
    (h : ∀ start, entry ≠ .process start) : Prompts outside told w e (w.noted entry) :=
  fun henvironment => ⟨henvironment, [entry], rfl, prompted_of_processless fun start hstart =>
    h start (List.mem_singleton.mp hstart).symm⟩

/-- Only hooks start processes. -/
theorem Prompts.listenerLaw : ListenerLaw (Prompts outside told) where
  refl w := .refl w none
  fail w f _ := .refl w (some f)
  trans h h' := h.trans h'
  recover h _ := h
  step h := by
    cases h with
    | raise f => exact .noted _ _ (by simp)
    | record r => exact .noted _ _ (by simp)
    | elsewhere r => exact .noted _ _ (by simp)
    | call c => exact .noted _ _ (by simp)
    | cleanup =>
      obtain ⟨new, h⟩ := cleanup_cleans _
      refine fun henvironment => ⟨by rw [h.rest]; exact henvironment, new, h.journal,
        prompted_of_processless fun start hstart => ?_⟩
      cases h.closing _ hstart
    | _ => exact .refl _ none
  heard w c _ := .noted w none (by simp)
  event w members := .noted { w with clock := w.clock.read.2 } none (by simp)

theorem Prompts.mark (act : Act) : Obeys (Prompts outside told) (Session.mark act) :=
  fun w => .noted w none (by simp)

theorem Prompts.eventLaw : EventLaw (Prompts outside told) :=
  .ofListener Prompts.listenerLaw (fun {act} _ => Prompts.mark act) fun h => h

/-- The processes of hooks find the environment of their event. -/
theorem environment_of_mem_course {runner : HookRunner} {programs : Programs}
    {environment : List (String × String)} {event : Event} {start : ProcessStart} :
    ∀ {hooks : List Hook} {past : List ProcessStart},
      start ∈ (runner.course programs environment event past hooks).2 →
      start.environment = hookEnvironment environment runner.hooks event := by
  intro hooks
  have hown : ∀ hook, start ∈ (runner.start? environment event hook).toList →
      start.environment = hookEnvironment environment runner.hooks event := by
    intro hook h
    unfold HookRunner.start? at h
    split at h
    · rw [List.mem_singleton.mp h]
    · cases h
  induction hooks with
  | nil => exact fun h => nomatch h
  | cons hook hooks ih =>
    intro past h
    cases hverdict : runner.verdict programs environment event past hook with
    | error failure =>
      rw [course_of_error hverdict] at h
      exact hown hook h
    | ok =>
      rw [course_of_ok hverdict, List.mem_append] at h
      exact h.elim (hown hook) ih

/-- Hooks are prompted by the act that announces them. -/
theorem Prompts.attemptHooks {runner : HookRunner} {event : Event} {act : Act}
    (h : ∀ start : ProcessStart,
      start.environment = hookEnvironment outside runner.hooks event → told act start) :
    Obeys (Prompts outside told) (do Session.mark act; Session.attemptHooks runner event) := by
  intro w henvironment
  obtain ⟨v, hv, hstarts⟩ := runs_attemptHooks runner event (w.noted (.act act))
  obtain ⟨new, hnew, hhooks, hprocesses⟩ := hstarts.journal
  unfold Session.mark
  rw [exec_bind_ok (exec_note _ w), hv]
  refine ⟨hstarts.environment.trans henvironment, .act act :: new, ?_, ?_⟩
  · rw [hnew]
    simp [World.noted]
  · have hacts : World.acts new = [] := by
      refine List.filterMap_eq_nil_iff.mpr fun entry hentry => ?_
      cases entry with
      | act other => cases hhooks _ hentry
      | _ => rfl
    refine prompted_cons hacts fun start hstart => h start ?_
    rw [hprocesses] at hstart
    rw [← henvironment]
    exact environment_of_mem_course hstart

/-- Something is done after the hooks that an act announces. -/
theorem Prompts.hooks_bind {α : Type} {runner : HookRunner} {event : Event} {act : Act}
    {f : Option Failure → Run α}
    (h : ∀ start : ProcessStart,
      start.environment = hookEnvironment outside runner.hooks event → told act start)
    (hf : ∀ failure, Obeys (Prompts outside told) (f failure)) :
    Obeys (Prompts outside told)
      (Session.mark act >>= fun _ => Session.attemptHooks runner event >>= f) := by
  have hboth := Obeys.bind Prompts.listenerLaw.toLaw (Prompts.attemptHooks h) hf
  rwa [bind_assoc] at hboth

end

/-! ## The failure that a process is told of -/

/-- What a process finds as the failure of its event. -/
def failureText (start : ProcessStart) : Option String :=
  Json.lookup start.environment "RELEASE_FAILURE"

/-- What stands under that name in the configuration, or else in the runner's own environment. -/
def inheritedFailure (hooks : Hooks) (outside : List (String × String)) : Option String :=
  (Json.lookup hooks.environment "RELEASE_FAILURE").or (Json.lookup outside "RELEASE_FAILURE")

/-- What a process is told of, by the act that prompts it and by what the run comes to: the cause
of the failure where the session is closed by one, and otherwise only what is inherited. -/
inductive SeesFailure (inherited : Option String) (outcome : Option Outcome) :
    Act → Option String → Prop
  | before : SeesFailure inherited outcome .beforeHooks inherited
  | success (h : outcome = some .success) :
      SeesFailure inherited outcome (.closingHooks .success) inherited
  | failure {source : Source} {cause : Failure} (h : outcome = some (.failure source cause)) :
      SeesFailure inherited outcome (.closingHooks .failure) (some cause.text)

section
variable {outside : List (String × String)} (hnames : (outside.map Prod.fst).Nodup)
include hnames

theorem lookup_failure (hooks : Hooks) (event : Event) :
    Json.lookup (hookEnvironment outside hooks event) "RELEASE_FAILURE" =
      (event.failure.map (·.text)).or (inheritedFailure hooks outside) := by
  have hown : Json.lookup (eventVariables event) "RELEASE_FAILURE" =
      event.failure.map (·.text) := by
    unfold eventVariables
    cases event.failure with
    | none => rfl
    | some cause => rfl
  rw [lookup_hookEnvironment hnames, hown, Option.or_assoc]
  rfl

end

/-- The process is told as `SeesFailure` says. -/
def Informed (hooks : Hooks) (outside : List (String × String)) (outcome : Option Outcome)
    (act : Act) (start : ProcessStart) : Prop :=
  SeesFailure (inheritedFailure hooks outside) outcome act (failureText start)

section
variable {outside : List (String × String)} (hnames : (outside.map Prod.fst).Nodup)
  (setup : Setup) (runner : HookRunner) (items : List Item)
include hnames

theorem informed_drive (outcome : Option Outcome) :
    Obeys (Prompts outside (Informed runner.hooks outside outcome)) (drive runner items) := by
  have law : EventLaw (Prompts outside (Informed runner.hooks outside outcome)) :=
    Prompts.eventLaw
  have hstart : Obeys (Prompts outside (Informed runner.hooks outside outcome))
      (startSession runner) := by
    refine .hooks_bind (fun start h => ?_) fun failure => ?_
    · unfold Informed failureText
      rw [h, lookup_failure hnames]
      exact .before
    · cases failure with
      | some cause => exact .pure law.toLaw _
      | none => exact law.start
  refine .bind law.toLaw hstart fun setbacks => ?_
  split
  · exact .pure law.toLaw _
  · exact law.runSteps items setbacks

theorem informed_closeUp (outcome : Outcome) (duration : String) :
    Obeys (Prompts outside (Informed runner.hooks outside (some outcome)))
      (closeUp runner outcome duration) := by
  have law : ListenerLaw (Prompts outside (Informed runner.hooks outside (some outcome))) :=
    Prompts.listenerLaw
  refine .bind law.toLaw ?_ fun _ => law.toScriptLaw.conclude outcome duration
  unfold runClosingHooks
  split
  · exact .pure law.toLaw _
  · next phase hphase =>
    refine .hooks_bind (fun start h => ?_) fun _ => .pure law.toLaw _
    unfold Informed failureText
    rw [h, lookup_failure hnames]
    cases outcome with
    | success =>
      cases hphase
      exact .success rfl
    | failure source cause =>
      cases source with
      | step | endListener =>
        cases hphase
        exact .failure rfl
      | _ => cases hphase

/-- The outcome that the closing hooks are told of is the one that is kept. -/
theorem informed_ending (start : Instant) (setbacks : Setbacks) (w : World) :
    let v := (exec (ending setup runner start setbacks) w).2
    Prompts outside (Informed runner.hooks outside v.outcome) w none v := by
  have law (told) : ListenerLaw (Prompts outside told) := Prompts.listenerLaw
  have hstamp (told) : Prompts outside told w none w.stamped := by
    have hmark : Prompts outside told w none (w.noted (.act .stamp)) := Prompts.mark .stamp w
    have hread : Prompts outside told (w.noted (.act .stamp)) none w.stamped := .refl _ none
    exact hmark.trans hread
  have hreport (told) : Obeys (Prompts outside told) (reportOutcome setup setbacks) :=
    .bind (law told).toLaw ((law told).setStep _) fun _ => .bind (law told).toLaw (.mark _) fun _ =>
      .bind (law told).toLaw ((law told).report setup) fun _ =>
      .bind (law told).toLaw (fun _ => .refl _ none) fun _ => .pure (law told).toLaw _
  unfold ending
  rw [exec_bind_ok (exec_stampEnd w)]
  rcases hr : exec (reportOutcome setup setbacks) w.stamped with ⟨f | outcome, u⟩
  · rw [exec_bind_error hr]
    have hu := hreport (Informed runner.hooks outside u.outcome) w.stamped
    rw [hr] at hu
    exact (hstamp _).trans hu
  · rw [exec_bind_ok hr]
    have hkept : (exec (closeUp runner outcome (durationText start w.clock.next)) u).2.outcome =
        some outcome := by
      rw [← outcome_of_reportOutcome hr]
      exact settled_closeUp runner outcome _ u
    dsimp only
    rw [hkept]
    have hreported := hreport (Informed runner.hooks outside (some outcome)) w.stamped
    rw [hr] at hreported
    have hu : Prompts outside _ w none u := (hstamp _).trans hreported
    exact hu.trans (informed_closeUp hnames runner outcome _ u)

theorem informed_runSession (w : World) :
    let v := (exec (runSession setup runner items) w).2
    Prompts outside (Informed runner.hooks outside v.outcome) w none v := by
  have hopened (told) : Prompts outside told w none w.opened := .refl w none
  have hannounce (told) : Obeys (Prompts outside told) announce := Prompts.eventLaw.announce
  dsimp only
  rw [exec_runSession]
  rcases hr : exec announce w.opened with ⟨f | _, w₁⟩
  · rw [exec_bind_error hr]
    have hw₁ := hannounce (Informed runner.hooks outside w₁.outcome) w.opened
    rw [hr] at hw₁
    exact (hopened _).trans hw₁
  · rw [exec_bind_ok hr]
    have hw₁ (told) : Prompts outside told w none w₁ := by
      have h := hannounce told w.opened
      rw [hr] at h
      exact (hopened told).trans h
    rcases hdrive : exec (drive runner items) w₁ with ⟨f | setbacks, w₂⟩
    · rw [exec_bind_error hdrive]
      have hw₂ := informed_drive hnames runner items w₂.outcome w₁
      rw [hdrive] at hw₂
      exact (hw₁ _).trans hw₂
    · rw [exec_bind_ok hdrive]
      have hw₂ (outcome) : Prompts outside (Informed runner.hooks outside outcome) w none w₂ := by
        have h := informed_drive hnames runner items outcome w₁
        rw [hdrive] at h
        exact (hw₁ _).trans h
      exact (hw₂ _).trans (informed_ending hnames setup runner _ setbacks w₂)

end

/-- In every run, however it ends, the hooks that close a failed session are told the cause of its
outcome, whatever stands under that name elsewhere. All other hooks find what they inherit. -/
theorem execute_hookFailures (setup : Setup) (runner : HookRunner) (items : List Item) {w : World}
    (hnames : (w.environment.map Prod.fst).Nodup) :
    ∃ result v new, exec (execute setup runner items) w = (result, v) ∧
      v.journal = w.journal ++ new ∧
      Prompted (fun act start => SeesFailure (inheritedFailure runner.hooks w.environment) v.outcome
        act (failureText start)) new := by
  have hsession := informed_runSession hnames setup runner items w
  dsimp only at hsession
  rw [exec_execute]
  generalize exec (runSession setup runner items) w = session at hsession ⊢
  obtain ⟨result, u⟩ := session
  dsimp only at hsession ⊢
  -- closing the listeners and the log starts nothing and keeps the outcome
  have hcleaning := Step.cleanup (u.noted (.act .cleanup))
  have hsettled : Settled _ _ _ := Settled.law.step hcleaning
  have houtcome : (exec cleanup (u.noted (.act .cleanup))).2.outcome = u.outcome := hsettled
  have hcleaned (told) : Prompts w.environment told u none
      (exec cleanup (u.noted (.act .cleanup))).2 :=
    (Prompts.mark .cleanup u).trans (Prompts.listenerLaw.step hcleaning)
  have hsealed (told) : Prompts w.environment told u none
      (exec cleanup (u.noted (.act .cleanup))).2.sealed := by
    have hmark : Prompts w.environment told (exec cleanup (u.noted (.act .cleanup))).2 none
        (exec cleanup (u.noted (.act .cleanup))).2.sealed := Prompts.mark .closeLog _
    exact (hcleaned told).trans hmark
  have hall : Prompts w.environment (Informed runner.hooks w.environment u.outcome) w none
      (exec cleanup (u.noted (.act .cleanup))).2.sealed := hsession.trans (hsealed _)
  obtain ⟨-, new, hnew, hprompted⟩ := hall rfl
  rw [← houtcome] at hprompted
  cases (exec cleanup (u.noted (.act .cleanup))).1 with
  | ok => exact ⟨_, _, new, rfl, hnew, hprompted⟩
  | error f => exact ⟨_, _, new, rfl, hnew, hprompted⟩

/-- A session with a hook in front of it and one for its failure. -/
def notifying : Setup where
  model := ⟨⟨"demo", "1.0.0", "SEMVER"⟩,
    ⟨true, [], [⟨"check", ⟨[], []⟩, false, false, [], none⟩], [],
      [⟨"notify", ⟨[], []⟩, false, false, [], none⟩]⟩, []⟩
  settings := ⟨.info, ⟨.here, ["out"]⟩, false, ⟨.here, ["release.json"]⟩⟩

/-- The world of a run that the failure hook of another run started. -/
def nested : World :=
  { World.withListeners [] with
    environment := [("RELEASE_FAILURE", "outer")]
    programs := .named fun _ => .exits 0 "" "" }

/-- Where an item fails, the hook for it is told so instead of what stood there before. -/
theorem execute_hookFailures_nested :
    (nested.environment.map Prod.fst).Nodup ∧
    ∃ result v new,
      exec (execute notifying ⟨notifying.model.hooks, "linux"⟩
        [⟨.deploy, some ⟨"deploy", [.raise (.plain .value "boom")]⟩⟩]) nested = (result, v) ∧
      v.journal = nested.journal ++ new ∧
      Prompted (fun act start => SeesFailure (some "outer") v.outcome act (failureText start)) new ∧
      (World.processes new).map failureText = [some "outer", some "boom"] := by
  have hnames : (nested.environment.map Prod.fst).Nodup := by decide
  have hstarted : (World.processes (exec (execute notifying ⟨notifying.model.hooks, "linux"⟩
      [⟨.deploy, some ⟨"deploy", [.raise (.plain .value "boom")]⟩⟩]) nested).2.journal).map
      failureText = [some "outer", some "boom"] := by
    decide +kernel
  obtain ⟨result, v, new, hexec, hnew, hprompted⟩ :=
    execute_hookFailures notifying ⟨notifying.model.hooks, "linux"⟩
      [⟨.deploy, some ⟨"deploy", [.raise (.plain .value "boom")]⟩⟩] hnames
  rw [hexec, hnew] at hstarted
  exact ⟨hnames, result, v, new, hexec, hnew, hprompted, hstarted⟩

/-- The hook in front of a session is told of a failure that is none of its event: it belongs to the
run that this one is started in. -/
theorem execute_hookFailures_inherited :
    ∃ start, World.processes
        (exec (execute notifying ⟨notifying.model.hooks, "linux"⟩ []) nested).2.journal = [start] ∧
      Json.lookup start.environment "RELEASE_EVENT_PHASE" = some "before" ∧
      failureText start = some "outer" :=
  ⟨⟨["check"], [("RELEASE_FAILURE", "outer"), ("RELEASE_EVENT_PHASE", "before"),
      ("RELEASE_EVENT_SCOPE", "session")], none⟩, by decide +kernel, by decide +kernel,
    by decide +kernel⟩

end ReleaseRunner.Session
