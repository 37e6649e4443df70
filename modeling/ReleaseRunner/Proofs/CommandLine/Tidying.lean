import ReleaseRunner.Proofs.CommandLine.Configuration
import ReleaseRunner.Proofs.Session.Disposal

/-!
# What the program leaves behind

However the program ends, there is no trace file at its log any more, and every listener that was
registered since it began is closed once for each registration, unless the closing of one aborts
(`run_tidies`). So a listener is closed twice that was registered twice, and one that was made but
could not be given its policy is never closed (`run_leaves`). The log
and the listeners change hands on the way: the listeners are loaded first and closed where that
fails, then a block takes care of them in which the log is opened, which closes itself where no
workflow comes about, and from then on the workflow sees to both.
-/

namespace ReleaseRunner.CommandLine

open Config Files Log Session

/-! ## The listeners -/

/-- What is done with listeners is done with them by all that the program does. -/
theorem disposes_program : ProgramLaw Disposes where
  toRunnerLaw := .ofPlugin Disposes.law
    (fun h => by
      cases h with
      | mark act => exact ⟨[.act act], rfl, .refl _ rfl⟩
      | _ => exact ⟨[], (List.append_nil _).symm, .refl _ rfl⟩)
    fun h => h
  elsewhere w r := ⟨[.record r .made], rfl, .refl _ rfl⟩
  raised w f := Disposes.law.step (.raise w f)
  line w text := ⟨[.line text], rfl, .refl _ rfl⟩
  errorLine w text := ⟨[.errorLine text], rfl, .refl _ rfl⟩
  console _ _ := ⟨[], (List.append_nil _).symm, .refl _ rfl⟩
  act w act := ⟨[.act act], rfl, .refl _ rfl⟩
  factory w name properties := ⟨[.factory name properties], rfl, .refl _ rfl⟩
  opened _ _ := ⟨[], (List.append_nil _).symm, .refl _ rfl⟩
  validated _ := ⟨[], (List.append_nil _).symm, .refl _ rfl⟩
  andThen := .trans

/-- The loading of extensions, without what is done where it fails. -/
def loading (model : Model) : Run Unit :=
  model.extensions.forM fun (name, spec) => loadExtension name spec

/-! ## The log -/

/-- No trace file is at the log where none was before, and the listeners are closed or have not
been touched. -/
def Tidies (u : World) (_ : Option Failure) (v : World) : Prop :=
  (u.log.trace = none → v.log.trace = none) ∧ (v.roster.closed = true ∨ v.roster = u.roster)

theorem Tidies.trans {u v w : World} {e e' e'' : Option Failure} (h : Tidies u e v)
    (h' : Tidies v e' w) : Tidies u e'' w := by
  refine ⟨fun hu => h'.1 (h.1 hu), ?_⟩
  rcases h'.2 with hclosed | hsame
  · exact .inl hclosed
  · rw [hsame]
    exact h.2

theorem Tidies.law : OuterLaw Tidies where
  refl _ := ⟨id, .inr rfl⟩
  fail _ _ _ := ⟨id, .inr rfl⟩
  trans := Tidies.trans
  recover h _ := h
  elsewhere _ _ := ⟨id, .inr rfl⟩
  raised _ _ := ⟨id, .inr rfl⟩
  line _ _ := ⟨id, .inr rfl⟩
  errorLine _ _ := ⟨id, .inr rfl⟩
  console _ _ := ⟨id, .inr rfl⟩

theorem untraced_cleanup : Obeys Untraced cleanup := fun w => Untraced.law.step (.cleanup w)

theorem untraced_factory (w : World) (name : String) (properties : Members) :
    Untraced w none (w.noted (.factory name properties)) := fun htrace => by
  show w.log.trace = none ∧ World.traced (w.journal ++ [.factory name properties]) = _
  rw [World.traced_append]
  exact ⟨htrace, List.append_nil _⟩

/-- No trace file comes from the loading of extensions. -/
theorem untraced_loadExtensions (specs : List (String × ExtensionSpec)) :
    Obeys Untraced (loadExtensions specs) :=
  obeys_closingOnFailure .trans
    (.forM Untraced.law.toLaw fun _ _ => obeys_loadExtension Untraced.law.toLaw
      (fun w r => Untraced.law.step (.elsewhere w r)) untraced_factory Untraced.law.raise
      Untraced.law.enlist _ _)
    untraced_cleanup

/-- A log that cannot be opened leaves everything as it was. -/
theorem exec_openLog_error {file : Path} {w v : World} {f : Failure}
    (h : exec (openLog file) w = (.error f, v)) : v = w := by
  unfold openLog at h
  rw [exec_bind_ok (exec_get w)] at h
  cases hfolder : w.tree.makeFolder file.parent with
  | error g =>
    rw [hfolder] at h
    cases h
    rfl
  | ok tree =>
    rw [hfolder, exec_bind_ok (exec_lift _ _)] at h
    cases hfile : tree.writeText file "" with
    | error g =>
      rw [hfile] at h
      cases h
      rfl
    | ok tree =>
      rw [hfile] at h
      cases h

theorem exec_openContext_error {setup : Setup} {filters : Filters} {dryRun : Option Bool}
    {w v : World} {f : Failure} (h : exec (openContext setup filters dryRun) w = (.error f, v)) :
    v = w := by
  unfold openContext at h
  rw [exec_bind] at h
  rcases hr : exec (openLog setup.settings.traceFile) w with ⟨g | _, u⟩
  · rw [hr] at h
    cases h
    exact exec_openLog_error hr
  · rw [hr] at h
    cases h

/-- The computation does not end with an abort. -/
def Unaborted (_ : World) (e : Option Failure) (_ : World) : Prop :=
  ∀ f, e = some f → f.isAbort = false

theorem Unaborted.law : Law Unaborted where
  refl _ _ h := by cases h
  fail _ f hf g h := by
    cases h
    exact hf
  trans _ h := h
  recover _ _ _ h := by cases h

/-- A workflow that cannot be made fails with no abort. -/
theorem unaborted_making (setup : Setup) (registry : Registry) (name : String) :
    Obeys Unaborted (do
      let items ← (registry.plan name : Except Failure _)
      makeWorkflow setup items) := by
  have law := Unaborted.law
  refine .bind law (.lift law fun _ h => isAbort_of_plan h) fun items =>
    .bind law (.get_bind fun w => ?_) fun _ => .pure law _
  split
  · exact .pure law _
  · exact .bind law (obeys_say law (fun _ _ _ h => by cases h) _ _ _ _ _) fun _ =>
      .bind law (.lift law fun _ h => Model.isAbort_of_validate h) fun _ _ _ h => by
        cases h

/-- Within the block that takes care of the listeners, the log is closed again, unless it was never
opened. -/
theorem trace_of_block {setup : Setup} {a : Arguments} {registry : Registry} {w : World}
    (htrace : w.log.trace = none) :
    (exec (block setup a registry) w).2.log.trace = none := by
  unfold block
  rw [exec_bind]
  rcases hopen : exec (openContext _ _ _) w with ⟨f | _, u⟩
  · rw [exec_openContext_error hopen]
    exact htrace
  · dsimp only
    rw [exec_bind]
    rcases hitems : exec (closingLogOnFailure _) u with ⟨f | items, v⟩
    · have hmaking := unaborted_making setup registry (underscored a.command) u
      rw [exec_closingLogOnFailure] at hitems
      rcases hr : exec _ u with ⟨g | _, v'⟩
      · rw [hr] at hitems hmaking
        simp only [hmaking g rfl, Bool.false_eq_true, if_false] at hitems
        cases hitems
        rfl
      · rw [hr] at hitems
        cases hitems
    · obtain ⟨_, _, new, hexec, henveloped⟩ :=
        execute_enveloped setup (.on setup.model.hooks none) items v
      dsimp only
      rw [hexec]
      exact henveloped.detached.2

theorem snd_exec_ensuring {α : Type} (x : Run α) (last : Run Unit) (w : World) :
    (exec (ensuring x last) w).2 = (exec last (exec x w).2).2 := by
  rw [exec_ensuring]
  split
  · next h => rw [h]
  · next h => rw [h]

/-- Where the extensions cannot be loaded, the listeners are closed. -/
theorem closed_of_loadExtensions_error {specs : List (String × ExtensionSpec)} {w v : World}
    {f : Failure} (h : exec (loadExtensions specs) w = (.error f, v)) :
    v.roster.closed = true := by
  unfold loadExtensions at h
  rw [exec_closingOnFailure] at h
  rcases hr : exec _ w with ⟨g | _, u⟩
  · rw [hr] at h
    obtain ⟨new, hcleaned⟩ := cleanup_cleans u
    have hclosed := hcleaned.closed
    dsimp only at h
    split at h
    · next hr' =>
      rw [hr'] at hclosed
      cases h
      exact hclosed
    · next hr' =>
      rw [hr'] at hclosed
      cases h
      exact hclosed
  · rw [hr] at h
    cases h

/-- After a workflow the listeners are closed, if any were loaded, and no trace file is left. -/
theorem tidies_runWorkflow (setup : Setup) (a : Arguments) :
    Obeys Tidies (runWorkflow setup a) := by
  refine .bind Tidies.law.toLaw Tidies.law.installedRegistry fun registry w => ?_
  have hload := untraced_loadExtensions setup.model.extensions w
  rw [exec_bind]
  rcases hr : exec (loadExtensions setup.model.extensions) w with ⟨f | _, v⟩
  · rw [hr] at hload
    refine ⟨fun htrace => (hload htrace).1, .inl ?_⟩
    exact closed_of_loadExtensions_error hr
  · rw [hr] at hload
    dsimp only
    obtain ⟨new, hcleaned⟩ := cleanup_cleans (exec _ v).2
    refine ⟨fun htrace => ?_, .inl ?_⟩
    · rw [snd_exec_ensuring, hcleaned.rest]
      exact trace_of_block (hload htrace).1
    · rw [snd_exec_ensuring]
      exact hcleaned.closed

/-! ## What was loaded -/

/-- What is logged about a failure does nothing to the listeners. -/
theorem disposes_guarded (x : Run Unit) (w : World) :
    Disposes (exec x w).2 none (exec (guarded x) w).2 := by
  have law := disposes_program
  unfold guarded
  rcases hr : exec x w with ⟨f | _, v⟩
  · cases hf : f.isAbort
    · rw [exec_bind_ok (exec_attempt_caught hr hf)]
      have htold : Obeys Disposes (do
          if f.kind.isRelease then
            sayElsewhere programLogger .error f.text [] false
            note (.errorLine f.text)
          else sayElsewhere programLogger .error "Release failed" [] true
          return 1 : Run Nat) := by
        split
        · exact .bind law.toLaw (law.toOuterLaw.sayElsewhere _ _ _ _ _) fun _ =>
            .bind law.toLaw (fun w => law.errorLine w _) fun _ => .pure law.toLaw _
        · exact .bind law.toLaw (law.toOuterLaw.sayElsewhere _ _ _ _ _) fun _ =>
            .pure law.toLaw _
      exact htold v
    · rw [exec_bind_error (exec_attempt_abort hr hf)]
      exact law.refl v
  · rw [exec_bind_ok (exec_attempt_ok hr)]
    exact law.refl v

/-- From the loading of the extensions on, listeners are only registered or closed. -/
theorem disposes_after_loading (setup : Setup) (a : Arguments) {registry : Registry}
    {w u : World} (hregistry : exec installedRegistry w = (.ok registry, u)) :
    Disposes (exec (loading setup.model) u).2 none (exec (runWorkflow setup a) w).2 := by
  have law := disposes_program
  have hload : loadExtensions setup.model.extensions = closingOnFailure (loading setup.model) :=
    rfl
  rw [runWorkflow_eq, exec_bind_ok hregistry, exec_bind, hload, exec_closingOnFailure]
  rcases exec (loading setup.model) u with ⟨f | _, v⟩
  · have hcleanup := law.cleanup v
    dsimp only
    rcases hr : exec cleanup v with ⟨g | _, v'⟩
    · rw [hr] at hcleanup
      exact hcleanup
    · rw [hr] at hcleanup
      exact hcleanup
  · have hblock : Obeys Disposes (ensuring (block setup a registry) cleanup) :=
      obeys_ensuring (P := Disposes) law.andThen (law.block setup a registry) law.cleanup
    exact hblock v

/-- The registry is made up without the listeners. -/
theorem roster_of_installedRegistry {w u : World} {registry : Registry}
    (h : exec installedRegistry w = (.ok registry, u)) : u.roster = w.roster := by
  have law : OuterLaw fun u _ v => v.roster = u.roster :=
    { refl := fun _ => rfl
      fail := fun _ _ _ => rfl
      trans := fun h h' => h'.trans h
      recover := fun h _ => h
      elsewhere := fun _ _ => rfl
      raised := fun _ _ => rfl
      line := fun _ _ => rfl
      errorLine := fun _ _ => rfl
      console := fun _ _ => rfl }
  have hsame := law.installedRegistry w
  rw [h] at hsame
  exact hsame

/-! ## The program -/

/-- What the program leaves behind in a world in which no listeners were made before. -/
structure Tidied (words : List String) (w v : World) (new : List Entry) : Prop where
  journal : v.journal = w.journal ++ new
  /-- There is no trace file at the log. -/
  detached : v.log.trace = none
  /-- None is closed more often than it is registered. -/
  once : ∀ id, (World.closings new).count id ≤ v.roster.order.count id
  /-- These are all up to the first whose closing aborts, in the order of registration. -/
  due : World.closings new = v.roster.due
  /-- So every one is closed where no closing aborts. -/
  all : (∀ id ∈ v.roster.order, v.roster.abortsAt id = false) →
    World.closings new = v.roster.order
  /-- A listener comes of each enabled extension, or of those before the first that fails. Whichever
  it is, all of them are registered. -/
  loaded : ∀ a settings model registry u, Arguments.read words = .ok a →
    a.command ≠ validateCommand → Configured a w settings model →
    exec installedRegistry (started w settings) = (.ok registry, u) →
    ∃ listeners, (Makes u.extensions (enabled model.extensions) listeners ∨
        ∃ earlier name spec failure,
          Fails u.extensions model.extensions earlier name spec listeners failure) ∧
      listeners.map (·.script) <+: v.roster.scripts ∧
      List.range listeners.length <+: v.roster.order

/-- What was made while extensions were loaded stays registered until the program ends. -/
theorem disposes_run {words : List String} {w u : World} {a : Arguments} {settings : Settings}
    {model : Model} {registry : Registry} (hread : Arguments.read words = .ok a)
    (hcommand : a.command ≠ validateCommand) (hconfigured : Configured a w settings model)
    (hregistry : exec installedRegistry (started w settings) = (.ok registry, u)) :
    Disposes (exec (loading model) u).2 none (exec (run words) w).2 := by
  have htask : a.task settings model = runWorkflow (a.setup settings model) a :=
    if_neg (by rw [beq_iff_eq]; exact hcommand)
  have hguarded := disposes_guarded (a.task settings model) (started w settings)
  rw [← exec_of_configured hconfigured, htask] at hguarded
  have hrun : (exec (run words) w).2 = (exec (runCommand a) w).2 := by
    unfold run
    rw [hread]
    dsimp only
    rw [exec_bind]
    rcases exec (runCommand a) w with ⟨f | code, v⟩ <;> rfl
  rw [hrun]
  exact (disposes_after_loading (a.setup settings model) a hregistry).trans hguarded

/-- The listeners that come of extensions are registered first, in their order. -/
theorem loading_registers (model : Model) {u : World} (hroster : u.roster = .empty) :
    ∃ listeners, (Makes u.extensions (enabled model.extensions) listeners ∨
        ∃ earlier name spec failure,
          Fails u.extensions model.extensions earlier name spec listeners failure) ∧
      (exec (loading model) u).2.roster.made = listeners ∧
      (exec (loading model) u).2.roster.order = List.range listeners.length := by
  obtain ⟨result, v, hv, hcourse⟩ := loading_course model.extensions (w := u) (by rw [hroster]; rfl)
  have hloading : exec (loading model) u = (result, v) := hv
  rw [hloading]
  cases hcourse with
  | @done listeners _ hmakes hloads =>
    exact ⟨listeners, .inl hmakes, hloads.made_eq hroster, hloads.order_eq hroster⟩
  | @stopped earlier name spec listeners failure _ _ hfails hloads =>
    exact ⟨listeners, .inr ⟨earlier, name, spec, failure, hfails⟩, hloads.made_eq hroster,
      hloads.order_eq hroster⟩

/-- However the program ends, no trace file is left at the log, and the listeners that it loaded and
those that were registered later are closed once for each registration, unless the closing of one
aborts. -/
theorem run_tidies (words : List String) {w : World} (hroster : w.roster = .empty)
    (htrace : w.log.trace = none) :
    ∃ result v new, exec (run words) w = (result, v) ∧ Tidied words w v new := by
  obtain ⟨new, hnew, -, hdisposes⟩ := disposes_program.run words w
  obtain ⟨hdetached, hclosed⟩ := Tidies.law.run tidies_runWorkflow words w
  have hopen : w.roster.closed = false := by rw [hroster]; rfl
  rw [if_neg (by simp [hopen])] at hdisposes
  -- an open roster is the one that the program began with, in which there is nothing to close
  have hdue : World.closings new = (exec (run words) w).2.roster.due := by
    rw [hdisposes.2]
    rcases hclosed with hclosed | hsame
    · rw [if_pos hclosed]
    · rw [hsame, hroster]
      rfl
  refine ⟨_, _, new, rfl,
    { journal := hnew, detached := hdetached htrace, once := ?_, due := hdue
      all := fun hnone => ?_
      loaded := fun a settings model registry u hread hcommand hconfigured hregistry => ?_ }⟩
  · rw [hdue]
    exact (isPrefix_upTo _ _).sublist.count_le
  · rw [hdue]
    exact upTo_eq_self.mpr fun id hid => hnone id (List.dropLast_subset _ hid)
  · have hunregistered : u.roster = .empty :=
      (roster_of_installedRegistry hregistry).trans hroster
    obtain ⟨listeners, hmakes, hmade, horder⟩ := loading_registers model hunregistered
    have hlater := disposes_run hread hcommand hconfigured hregistry
    refine ⟨listeners, hmakes, ?_, horder ▸ hlater.order⟩
    rw [← hmade]
    exact hlater.scripts

/-- A step registers a listener and aborts. That listener and the one that was loaded are closed. -/
theorem run_tidies_aborted :
    ∃ w : World, w.roster = .empty ∧ w.log.trace = none ∧
      (exec (run ["deploy"]) w).1 = .error (.plain .abort "stop") ∧
      World.calls (exec (run ["deploy"]) w).2.journal =
        ["session_start@Loaded", "deploy:before@Loaded", "invoke:deploy", "close@Loaded",
          "close@Late"] ∧
      ∃ result v new, exec (run ["deploy"]) w = (result, v) ∧ Tidied ["deploy"] w v new := by
  let configuration :=
    "\x7b\"project\": \x7b\"name\": \"demo\", \"version\": \"1.2.3\"\x7d, " ++
      "\"extensions\": \x7b\"watcher\": \x7b\x7d\x7d\x7d"
  let w : World :=
    { World.withListeners [] with
      tree := Tree.empty.lay ["release.json"] (.text configuration)
      extensions := [("watcher", .listener "Loaded" false [])]
      steps := [("deploy", .performer [.register "Late" false [] [],
        .raise (.plain .abort "stop")])] }
  exact ⟨w, rfl, rfl, by decide +kernel, by decide +kernel, run_tidies ["deploy"] rfl rfl⟩

/-- A listener that is made but cannot be given its policy is left unclosed, and one that a step
registers once more is closed twice. -/
theorem run_leaves :
    (∃ w : World, w.roster = .empty ∧ w.log.trace = none ∧
      let left := exec (run ["deploy"]) w
      left.1 = .ok (.returned 1) ∧
      (World.factories left.2.journal).map Prod.fst = ["watcher", "stiff"] ∧
      World.calls left.2.journal = ["close@Loaded"]) ∧
    ∃ w : World, w.roster = .empty ∧ w.log.trace = none ∧
      let left := exec (run ["deploy"]) w
      left.1 = .ok (.returned 0) ∧ (World.factories left.2.journal).map Prod.fst = ["watcher"] ∧
      World.closings left.2.journal = [0, 0] := by
  let configuration (extensions : String) : String :=
    "\x7b\"project\": \x7b\"name\": \"demo\", \"version\": \"1.2.3\"\x7d, " ++
      "\"extensions\": \x7b\"watcher\": \x7b\x7d" ++ extensions ++ "\x7d\x7d"
  let refusal : Failure :=
    .plain .missingAttribute "property 'continue_on_error' of 'Stiff' object has no setter"
  let stiff : World :=
    { World.withListeners [] with
      tree := Tree.empty.lay ["release.json"]
        (.text (configuration ", \"stiff\": \x7b\"continue_on_error\": true\x7d"))
      extensions := [("watcher", .listener "Loaded" false []),
        ("stiff", .factory fun _ => .rigid "Stiff" false [] refusal)] }
  let doubled : World :=
    { World.withListeners [] with
      tree := Tree.empty.lay ["release.json"] (.text (configuration ""))
      extensions := [("watcher", .listener "Loaded" false [])]
      steps := [("deploy", .performer [.enrol "Loaded"])] }
  exact ⟨⟨stiff, rfl, rfl, by decide +kernel⟩, ⟨doubled, rfl, rfl, by decide +kernel⟩⟩

end ReleaseRunner.CommandLine
