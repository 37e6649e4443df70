import Mathlib.Data.Finset.Card
import ReleaseRunner.Proofs.Json.Members
import ReleaseRunner.Proofs.Log.Template
import ReleaseRunner.Proofs.Session.Lifecycle

/-!
# Performers of stages

The installed performers are gone through in order (`collect`), and the last one of a stage is
its performer (`Performs`), whatever is installed for other stages in between. A name of no stage
is told and otherwise left alone, and the first performer of a stage that cannot be loaded ends it
all (`Collects`). Neither the order of performers of different stages matters
(`Collects.of_filter`) nor what is installed under a name of no stage (`collect_congr`).
-/

namespace ReleaseRunner.Session

open Config Log

/-! ## Stages and their names -/

theorem ofName?_name (stage : Stage) : Stage.ofName? stage.name = some stage := by
  cases stage <;> rfl

theorem ofName?_eq_some_iff {name : String} {stage : Stage} :
    Stage.ofName? name = some stage ↔ name = stage.name := by
  constructor
  · intro h
    unfold Stage.ofName? at h
    have hname := List.find?_some h
    exact (beq_iff_eq.mp hname).symm
  · rintro rfl
    exact ofName?_name stage

/-- The name is that of a stage. -/
def isStageName (name : String) : Bool := (Stage.ofName? name).isSome

/-- The stages of installed performers, in order, as often as they are there. -/
def stagesOf (steps : List (String × StepPlugin)) : List Stage :=
  steps.filterMap fun entry => Stage.ofName? entry.1

theorem mem_stagesOf {steps : List (String × StepPlugin)} {stage : Stage} :
    stage ∈ stagesOf steps ↔ stage.name ∈ steps.map Prod.fst := by
  unfold stagesOf
  simp only [List.mem_filterMap, ofName?_eq_some_iff, List.mem_map]

/-! ## The performer of a stage -/

/-- What is installed for a stage: the last performer under its name counts. -/
inductive Performs (steps : List (String × StepPlugin)) (stage : Stage) : Option Handler → Prop
  | nobody (h : stage.name ∉ steps.map Prod.fst) : Performs steps stage none
  | last {before after : List (String × StepPlugin)} {actions : List Action}
      (h : steps = before ++ (stage.name, .performer actions) :: after)
      (hlast : stage.name ∉ after.map Prod.fst) :
      Performs steps stage (some ⟨stage.name, actions⟩)

section
variable {steps other : List (String × StepPlugin)} {stage : Stage} {handler : Option Handler}

theorem Performs.isSome_iff (h : Performs steps stage handler) :
    handler.isSome = true ↔ stage ∈ stagesOf steps := by
  rw [mem_stagesOf]
  cases h with
  | nobody h => simp [h]
  | last h => simp [h]

/-- What is installed under another name does not matter. -/
theorem Performs.append_other (h : Performs steps stage handler) {name : String}
    (hname : name ≠ stage.name) (plugin : StepPlugin) :
    Performs (steps ++ [(name, plugin)]) stage handler := by
  cases h with
  | nobody h =>
    refine .nobody ?_
    rw [List.map_append, List.mem_append, not_or]
    exact ⟨h, by simpa using hname.symm⟩
  | @last before after actions h hlast =>
    have hsplit : steps ++ [(name, plugin)] =
        before ++ (stage.name, .performer actions) :: (after ++ [(name, plugin)]) := by
      rw [h, List.append_assoc]
      rfl
    refine .last hsplit ?_
    rw [List.map_append, List.mem_append, not_or]
    exact ⟨hlast, by simpa using hname.symm⟩

theorem performs_append_self (steps : List (String × StepPlugin)) (stage : Stage)
    (actions : List Action) :
    Performs (steps ++ [(stage.name, .performer actions)]) stage
      (some ⟨stage.name, actions⟩) := by
  have hsplit : steps ++ [(stage.name, .performer actions)] =
      steps ++ (stage.name, .performer actions) :: [] := rfl
  exact .last hsplit (by simp)

theorem performs_some_iff {handler : Handler} : Performs steps stage (some handler) ↔
    ∃ actions, Json.lookup steps stage.name = some (.performer actions) ∧
      handler = ⟨stage.name, actions⟩ := by
  simp only [Json.lookup_eq_some_iff]
  constructor
  · rintro (_ | ⟨h, hlast⟩)
    exact ⟨_, ⟨_, _, h, hlast⟩, rfl⟩
  · rintro ⟨actions, ⟨before, after, h, hlast⟩, rfl⟩
    exact .last h hlast

theorem performs_none_iff :
    Performs steps stage none ↔ Json.lookup steps stage.name = none := by
  rw [Json.lookup_eq_none_iff]
  constructor
  · rintro (h | _)
    exact h
  · exact .nobody

/-- Only the performers of the stage matter, in their order. -/
theorem Performs.of_filter (h : Performs steps stage handler)
    (hsame : other.filter (·.1 == stage.name) = steps.filter (·.1 == stage.name)) :
    Performs other stage handler := by
  have hlookup (l : List (String × StepPlugin)) :
      Json.lookup l stage.name = Json.lookup (l.filter (·.1 == stage.name)) stage.name := by
    unfold Json.lookup
    rw [← List.filter_reverse, List.find?_filter]
    simp only [and_self, Bool.decide_eq_true]
  have hboth : Json.lookup other stage.name = Json.lookup steps stage.name := by
    rw [hlookup other, hlookup steps, hsame]
  cases handler with
  | none =>
    rw [performs_none_iff] at h ⊢
    rw [hboth, h]
  | some handler =>
    rw [performs_some_iff] at h ⊢
    rw [hboth]
    exact h

/-- A stage has one performer or none. -/
theorem Performs.unique {second : Option Handler} (h : Performs steps stage handler)
    (h' : Performs steps stage second) : handler = second := by
  cases handler with
  | none =>
    have hnone := performs_none_iff.mp h
    cases second with
    | none => rfl
    | some second =>
      obtain ⟨actions, hsome, -⟩ := performs_some_iff.mp h'
      rw [hnone] at hsome
      cases hsome
  | some first =>
    obtain ⟨actions, hsome, rfl⟩ := performs_some_iff.mp h
    cases second with
    | none =>
      rw [performs_none_iff.mp h'] at hsome
      cases hsome
    | some second =>
      obtain ⟨actions', hsome', rfl⟩ := performs_some_iff.mp h'
      rw [hsome] at hsome'
      cases hsome'
      rfl

end

/-! ## Going through the installed performers -/

/-- A warning of the registry, with the name that it is about. -/
def warning (message key name : String) : Entry :=
  .record { level := .warning, logger := "release_orchestrator.workflow.commands"
            message := message, extra := [(key, .text name)], traceback := false } .made

/-- What is told of a name that is that of no stage. -/
def ignoring (name : String) : Entry :=
  warning "Ignoring step for unknown command" "entry_point" name

/-- What is told of a stage whose performer gives way to another. -/
def replacing (stage : Stage) : Entry :=
  warning "Replacing step handler" "command" stage.name

/-- The entry tells that a name is that of no stage. -/
def Entry.isIgnoring : Entry → Bool
  | .record r _ => r.message == "Ignoring step for unknown command"
  | _ => false

/-- The entry tells that a performer gives way to another. -/
def Entry.isReplacing : Entry → Bool
  | .record r _ => r.message == "Replacing step handler"
  | _ => false

/-- The registry of a list of performers, starting from another one, and what is told on the
way. -/
def collect : Registry → List (String × StepPlugin) → Except Failure Registry × List Entry
  | registry, [] => (.ok registry, [])
  | registry, (name, plugin) :: steps =>
    match Stage.ofName? name, plugin with
    | none, _ => ((collect registry steps).1, ignoring name :: (collect registry steps).2)
    | some _, .unloadable failure => (.error failure, [.raised failure])
    | some stage, .performer actions =>
      let rest := collect (registry.put stage ⟨name, actions⟩) steps
      (rest.1, (if (registry.handler? stage).isSome then [replacing stage] else []) ++ rest.2)

theorem exec_warning {key : String} (h : Record.isShown key = true)
    (hkey : key ≠ Record.messageName) (message name : String) (w : World) :
    exec (sayElsewhere registryLogger .warning message [(key, .text name)] false) w =
      (.ok (), w.noted (warning message key name)) := by
  have hmake : Record.make? "release_orchestrator.workflow.commands" .warning message []
      [(key, .text name)] false = some
        { level := .warning, logger := "release_orchestrator.workflow.commands"
          message := message, extra := [(key, .text name)], traceback := false } := by
    rw [Record.make?_of_fill? (Record.isShowable_text hkey name) rfl]
    simp only [List.filter_cons, h, if_true, List.filter_nil]
  unfold sayElsewhere
  rw [show "release_orchestrator." ++ registryLogger = "release_orchestrator.workflow.commands"
    from rfl, hmake]
  rfl

theorem exec_registerPlugin_unknown {name : String} (h : Stage.ofName? name = none)
    (registry : Registry) (plugin : StepPlugin) (w : World) :
    exec (registerPlugin registry name plugin) w = (.ok registry, w.noted (ignoring name)) := by
  unfold registerPlugin
  rw [h]
  dsimp only
  rw [exec_bind_ok (exec_warning (by decide +kernel) (by decide) _ name w)]
  rfl

theorem exec_registerPlugin_unloadable {name : String} {stage : Stage}
    (h : Stage.ofName? name = some stage) (registry : Registry) (failure : Failure) (w : World) :
    exec (registerPlugin registry name (.unloadable failure)) w =
      (.error failure, w.noted (.raised failure)) := by
  unfold registerPlugin
  rw [h]
  rfl

theorem exec_registerPlugin_performer {name : String} {stage : Stage}
    (h : Stage.ofName? name = some stage) (registry : Registry) (actions : List Action)
    (w : World) :
    exec (registerPlugin registry name (.performer actions)) w =
      (.ok (registry.put stage ⟨name, actions⟩),
        if (registry.handler? stage).isSome then w.noted (replacing stage) else w) := by
  unfold registerPlugin registerHandler
  rw [h]
  dsimp only
  split
  · rw [exec_bind_ok (exec_warning (by decide +kernel) (by decide) _ stage.name w)]
    rfl
  · rfl

theorem exec_collect (steps : List (String × StepPlugin)) (registry : Registry) (w : World) :
    exec (steps.foldlM (fun registry (name, plugin) => registerPlugin registry name plugin)
        registry) w =
      ((collect registry steps).1,
        { w with journal := w.journal ++ (collect registry steps).2 }) := by
  induction steps generalizing registry w with
  | nil =>
    unfold collect
    rw [List.append_nil]
    rfl
  | cons entry steps ih =>
    obtain ⟨name, plugin⟩ := entry
    rw [List.foldlM_cons]
    unfold collect
    cases hname : Stage.ofName? name with
    | none =>
      rw [exec_bind_ok (exec_registerPlugin_unknown hname registry plugin w), ih]
      simp [World.noted]
    | some stage =>
      cases plugin with
      | unloadable failure =>
        rw [exec_bind_error (exec_registerPlugin_unloadable hname registry failure w)]
        rfl
      | performer actions =>
        rw [exec_bind_ok (exec_registerPlugin_performer hname registry actions w), ih]
        dsimp only
        split <;> simp [World.noted]

theorem exec_installedRegistry (w : World) :
    exec installedRegistry w =
      ((collect [] w.steps).1, { w with journal := w.journal ++ (collect [] w.steps).2 }) :=
  exec_collect w.steps [] w

/-- What comes of performers that are all registered. -/
structure Registered (steps : List (String × StepPlugin)) (registry : Registry)
    (new : List Entry) : Prop where
  /-- The last performer of each stage counts. -/
  performers : ∀ stage, Performs steps stage (registry.handler? stage)
  /-- Each name of no stage is told once, in order. -/
  ignored : new.filter Entry.isIgnoring =
    (steps.filter fun entry => !isStageName entry.1).map fun entry => ignoring entry.1
  /-- As often as a stage has a performer already, it is told that this one gives way. -/
  replaced : (new.filter Entry.isReplacing).length + (stagesOf steps).toFinset.card =
    (stagesOf steps).length
  /-- Nothing else is noted. -/
  told : ∀ entry ∈ new, (∃ name, entry = ignoring name) ∨
    ∃ stage ∈ stagesOf steps, entry = replacing stage

/-- All performers of stages can be loaded. -/
def Loadable (steps : List (String × StepPlugin)) : Prop :=
  ∀ entry ∈ steps, isStageName entry.1 = true → ∃ actions, entry.2 = .performer actions

/-- What comes of the installed performers, and what is noted: all are registered, or all up to the
first one of a stage that cannot be loaded, whose failure it is. -/
inductive Collects (steps : List (String × StepPlugin)) :
    Except Failure Registry → List Entry → Prop
  | all {registry : Registry} {new : List Entry} (hloads : Loadable steps)
      (h : Registered steps registry new) : Collects steps (.ok registry) new
  | failed {before after : List (String × StepPlugin)} {name : String} {failure : Failure}
      {registry : Registry} {new : List Entry}
      (hsteps : steps = before ++ (name, .unloadable failure) :: after)
      (hname : isStageName name = true) (hloads : Loadable before)
      (h : Registered before registry new) :
      Collects steps (.error failure) (new ++ [.raised failure])

theorem handler?_put (registry : Registry) (stage other : Stage) (handler : Handler) :
    (registry.put stage handler).handler? other =
      if other = stage then some handler else registry.handler? other := by
  unfold Registry.put Registry.handler?
  split
  · next h => rw [h, List.lookup_cons_self]
  · next h =>
    rw [List.lookup_cons, beq_eq_false_iff_ne.mpr h]
    exact lookup_filter_of_ne h registry

theorem registered_nil : Registered [] [] [] where
  performers stage := .nobody (by simp)
  ignored := rfl
  replaced := rfl
  told := by simp

section
variable {steps : List (String × StepPlugin)} {registry : Registry} {new : List Entry}
  {name : String} {stage : Stage}

@[simp] theorem isIgnoring_ignoring (name : String) : (ignoring name).isIgnoring = true := by
  simp [ignoring, warning, Entry.isIgnoring]

@[simp] theorem isIgnoring_replacing (stage : Stage) :
    (replacing stage).isIgnoring = false := by
  simp [replacing, warning, Entry.isIgnoring]

@[simp] theorem isReplacing_ignoring (name : String) :
    (ignoring name).isReplacing = false := by
  simp [ignoring, warning, Entry.isReplacing]

@[simp] theorem isReplacing_replacing (stage : Stage) :
    (replacing stage).isReplacing = true := by
  simp [replacing, warning, Entry.isReplacing]

/-- A name of no stage changes nothing but that it is told. -/
theorem Registered.ignore (h : Registered steps registry new) (hname : Stage.ofName? name = none)
    (plugin : StepPlugin) :
    Registered (steps ++ [(name, plugin)]) registry (new ++ [ignoring name]) := by
  have hstages : stagesOf (steps ++ [(name, plugin)]) = stagesOf steps := by
    simp [stagesOf, hname]
  have hunknown : isStageName name = false := by simp [isStageName, hname]
  refine ⟨fun stage => (h.performers stage).append_other ?_ plugin, ?_, ?_, ?_⟩
  · rintro rfl
    rw [ofName?_name] at hname
    cases hname
  · rw [List.filter_append, h.ignored, List.filter_append, List.map_append]
    simp [hunknown]
  · rw [hstages, List.filter_append, ← h.replaced]
    simp
  · rw [hstages, List.forall_mem_append]
    exact ⟨h.told, by simp⟩

/-- A further performer takes the place of its stage. -/
theorem Registered.put (h : Registered steps registry new) (stage : Stage)
    (actions : List Action) :
    Registered (steps ++ [(stage.name, .performer actions)])
      (registry.put stage ⟨stage.name, actions⟩)
      (new ++ if (registry.handler? stage).isSome then [replacing stage] else []) := by
  have hstages : stagesOf (steps ++ [(stage.name, .performer actions)])
      = stagesOf steps ++ [stage] := by
    simp [stagesOf, ofName?_name]
  have hknown : isStageName stage.name = true := by simp [isStageName, ofName?_name]
  have htaken := (h.performers stage).isSome_iff
  refine ⟨fun other => ?_, ?_, ?_, ?_⟩
  · rw [handler?_put]
    split
    · next hsame =>
      rw [hsame]
      exact performs_append_self steps stage actions
    · next hother =>
      refine (h.performers other).append_other (fun hname => hother ?_) _
      exact (Option.some.inj ((ofName?_name stage).symm.trans
        (ofName?_eq_some_iff.mpr hname))).symm
  · rw [List.filter_append, h.ignored, List.filter_append, List.map_append]
    split <;> simp [hknown]
  · rw [hstages, List.filter_append, List.length_append, List.length_append, ← h.replaced,
      List.toFinset_append, List.toFinset_cons, List.toFinset_nil, insert_empty_eq,
      Finset.union_singleton]
    split
    · next hsome =>
      rw [Finset.insert_eq_of_mem (List.mem_toFinset.mpr (htaken.mp hsome))]
      simp
      omega
    · next hnone =>
      rw [Finset.card_insert_of_notMem fun hmem =>
        hnone (htaken.mpr (List.mem_toFinset.mp hmem))]
      simp
      omega
  · rw [hstages, List.forall_mem_append]
    refine ⟨fun entry hentry => ?_, ?_⟩
    · rcases h.told entry hentry with hignored | ⟨other, hother, rfl⟩
      · exact .inl hignored
      · exact .inr ⟨other, List.mem_append_left _ hother, rfl⟩
    · split <;> simp

theorem loadable_append (h : Loadable steps) (entry : String × StepPlugin)
    (hentry : isStageName entry.1 = true → ∃ actions, entry.2 = .performer actions) :
    Loadable (steps ++ [entry]) := by
  unfold Loadable
  rw [List.forall_mem_append, List.forall_mem_singleton]
  exact ⟨h, hentry⟩

/-- Going through further performers, what comes of all of them is told. -/
theorem collects_append : ∀ (rest : List (String × StepPlugin))
    {steps : List (String × StepPlugin)} {registry : Registry} {new : List Entry},
    Loadable steps → Registered steps registry new →
    Collects (steps ++ rest) (collect registry rest).1 (new ++ (collect registry rest).2) := by
  intro rest
  induction rest with
  | nil =>
    intro steps registry new hloads h
    unfold collect
    rw [List.append_nil, List.append_nil]
    exact .all hloads h
  | cons entry rest ih =>
    intro steps registry new hloads h
    obtain ⟨name, plugin⟩ := entry
    have hsplit : steps ++ (name, plugin) :: rest = steps ++ [(name, plugin)] ++ rest := by simp
    unfold collect
    cases hname : Stage.ofName? name with
    | none =>
      have hunknown : isStageName name = false := by simp [isStageName, hname]
      have hnext := ih (loadable_append hloads (name, plugin) (by simp [hunknown]))
        (h.ignore hname plugin)
      rw [List.append_assoc new] at hnext
      rw [hsplit]
      exact hnext
    | some stage =>
      obtain rfl := ofName?_eq_some_iff.mp hname
      cases plugin with
      | unloadable failure => exact .failed rfl (by simp [isStageName, hname]) hloads h
      | performer actions =>
        have hnext := ih (loadable_append hloads (stage.name, .performer actions)
          fun _ => ⟨actions, rfl⟩) (h.put stage actions)
        rw [List.append_assoc new] at hnext
        rw [hsplit]
        exact hnext

theorem collect_collects (steps : List (String × StepPlugin)) :
    Collects steps (collect [] steps).1 (collect [] steps).2 :=
  collects_append steps (by simp [Loadable]) registered_nil

end

/-! ## What does not matter -/

/-- Two performers under one name, which are the same if the name is that of a stage. -/
def SameStep (entry other : String × StepPlugin) : Prop :=
  other.1 = entry.1 ∧ (isStageName entry.1 = true → other.2 = entry.2)

/-- What is installed under a name of no stage is never loaded. -/
theorem collect_congr {steps other : List (String × StepPlugin)}
    (h : List.Forall₂ SameStep steps other) (registry : Registry) :
    collect registry other = collect registry steps := by
  induction h generalizing registry with
  | nil => rfl
  | @cons entry entry' steps other hsame _ ih =>
    obtain ⟨name, plugin⟩ := entry
    obtain ⟨name', plugin'⟩ := entry'
    obtain ⟨hnames, hplugins⟩ := hsame
    dsimp only at hnames hplugins
    subst hnames
    unfold collect
    cases hname : Stage.ofName? name' with
    | none =>
      dsimp only
      rw [ih registry]
    | some stage =>
      obtain rfl := hplugins (by rw [isStageName, hname]; rfl)
      cases plugin' with
      | unloadable failure => rfl
      | performer actions =>
        dsimp only
        rw [ih]

section
variable {steps other : List (String × StepPlugin)}

theorem Loadable.of_filter (h : Loadable steps)
    (hsame : ∀ name, other.filter (·.1 == name) = steps.filter (·.1 == name)) :
    Loadable other := by
  intro entry hentry hname
  have hmem : entry ∈ other.filter (·.1 == entry.1) :=
    List.mem_filter.mpr ⟨hentry, beq_self_eq_true _⟩
  rw [hsame] at hmem
  exact h entry (List.mem_of_mem_filter hmem) hname

/-- The order of performers under different names does not matter. -/
theorem Collects.of_filter {registry : Registry} {result : Except Failure Registry}
    {new new' : List Entry} (h : Collects steps (.ok registry) new)
    (hsame : ∀ name, other.filter (·.1 == name) = steps.filter (·.1 == name))
    (h' : Collects other result new') :
    ∃ registry', result = .ok registry' ∧
      ∀ stage, registry'.handler? stage = registry.handler? stage := by
  cases h with
  | all hloads hregistered =>
    cases h' with
    | @all registry' _ _ hregistered' =>
      exact ⟨registry', rfl, fun stage => (hregistered'.performers stage).unique
        ((hregistered.performers stage).of_filter (hsame stage.name))⟩
    | @failed before after name failure _ _ hsteps hname _ _ =>
      -- one of the same performers would have to be unloadable
      have hmem : (name, StepPlugin.unloadable failure) ∈ other := by
        rw [hsteps]
        simp
      obtain ⟨actions, hactions⟩ := hloads.of_filter hsame _ hmem hname
      cases hactions

end

end ReleaseRunner.Session
