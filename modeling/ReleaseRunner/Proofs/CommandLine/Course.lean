import ReleaseRunner.CommandLine.Program
import ReleaseRunner.Proofs.Config.Validation
import ReleaseRunner.Proofs.Session.Envelope
import ReleaseRunner.Proofs.Session.Loading

/-!
# The course of the program

What the program does around a session keeps to few kinds of steps: it prints, it logs outside of
the session, and it sets the level of the console (`OuterLaw`). With the steps of the runner, the
log that is opened and the validation that is kept, this is all that it does (`ProgramLaw`). The
main statement says that a law that holds of these holds of every run of the program
(`ProgramLaw.run`).

No failure that the program makes by itself is an abort. Aborts come from plugins alone.
-/

namespace ReleaseRunner.CommandLine

open Config Files Log Session

variable {α : Type}

/-! ## Failures that are no aborts -/

theorem isAbort_of_readText {tree : Tree} {file : Path} {f : Failure}
    (h : tree.readText file = .error f) : f.isAbort = false := by
  unfold Tree.readText at h
  split at h
  · cases h
  · cases h
    rfl
  · cases h
    exact isAbort_refusal _ _

theorem isAbort_of_load {tree : Tree} {file : Path} {f : Failure}
    (h : Model.load tree file = .error f) : f.isAbort = false := by
  unfold Model.load at h
  cases htext : tree.readText file with
  | error g =>
    rw [htext] at h
    cases h
    exact isAbort_of_readText htext
  | ok text =>
    rw [htext] at h
    change (Model.read text).mapError _ = _ at h
    cases hread : Model.read text with
    | error faults =>
      rw [hread] at h
      cases h
      rfl
    | ok model =>
      rw [hread] at h
      cases h

theorem isAbort_of_readEnvironmentFile {environment : List (String × String)} {tree : Tree}
    {f : Failure} (h : Settings.readEnvironmentFile environment tree = .error f) :
    f.isAbort = false := by
  unfold Settings.readEnvironmentFile at h
  split at h
  · cases htext : tree.readText Settings.environmentFile with
    | error g =>
      rw [htext] at h
      cases h
      exact isAbort_of_readText htext
    | ok text =>
      rw [htext] at h
      cases h
  · cases h

theorem isAbort_of_read {environment : List (String × String)} {tree : Tree} {f : Failure}
    (h : Settings.read environment tree = .error f) : f.isAbort = false := by
  unfold Settings.read at h
  cases hfile : Settings.readEnvironmentFile environment tree with
  | error g =>
    rw [hfile] at h
    cases h
    exact isAbort_of_readEnvironmentFile hfile
  | ok file =>
    rw [hfile] at h
    change Except.mapError _ (Settings.ofSources _) = _ at h
    generalize Settings.ofSources _ = checked at h
    cases checked with
    | error faults =>
      cases h
      rfl
    | ok settings => cases h

theorem isAbort_of_plan {registry : Registry} {name : String} {f : Failure}
    (h : registry.plan name = .error f) : f.isAbort = false := by
  unfold Registry.plan at h
  split at h
  · cases h
  · cases h
    rfl

/-! ## What is done in any case -/

theorem exec_closingLogOnFailure (x : Run α) (w : World) :
    exec (closingLogOnFailure x) w =
      match exec x w with
      | (.ok a, v) => (.ok a, v)
      | (.error f, v) =>
        (.error f, if f.isAbort then v
          else { v with log := { v.log with closed := true, trace := none } }) := by
  unfold closingLogOnFailure
  rcases hr : exec x w with ⟨f | a, v⟩
  · cases hf : f.isAbort
    · rw [exec_bind_ok (exec_attempt_caught hr hf)]
      simp only [hf, Bool.false_eq_true, if_false]
      rfl
    · rw [exec_bind_error (exec_attempt_abort hr hf)]
      simp only [hf, if_true]
  · rw [exec_bind_ok (exec_attempt_ok hr)]
    rfl

section
variable {P : World → Option Failure → World → Prop}
  (andThen : ∀ {u e v e' w}, P u e v → P v e' w → P u (e'.or e) w)
include andThen

theorem obeys_ensuring {x : Run α} {last : Run Unit} (hx : Obeys P x) (hlast : Obeys P last) :
    Obeys P (ensuring x last) := by
  intro w
  have h := andThen (hx w) (hlast _)
  rw [exec_ensuring]
  rcases hr : exec last (exec x w).2 with ⟨f | _, v⟩
  · rw [hr] at h
    exact h
  · rw [hr] at h
    exact h

theorem obeys_closingOnFailure {x : Run Unit} (hx : Obeys P x) (hcleanup : Obeys P cleanup) :
    Obeys P (closingOnFailure x) := by
  intro w
  have h := hx w
  rw [exec_closingOnFailure]
  rcases hr : exec x w with ⟨f | _, v⟩
  · rw [hr] at h
    have h := andThen h (hcleanup v)
    dsimp only
    rcases hr' : exec cleanup v with ⟨g | _, u⟩
    · rw [hr'] at h
      exact h
    · rw [hr'] at h
      exact h
  · rw [hr] at h
    exact h

theorem obeys_closingLogOnFailure {x : Run α} (hx : Obeys P x) (hclose : Obeys P closeLog) :
    Obeys P (closingLogOnFailure x) := by
  intro w
  have h := hx w
  rw [exec_closingLogOnFailure]
  rcases hr : exec x w with ⟨f | a, v⟩
  · rw [hr] at h
    dsimp only
    split
    · exact h
    · exact andThen h (hclose v)
  · rw [hr] at h
    exact h

end

/-! ## Around a session -/

/-- A law that holds of what the program does by itself outside of a session, and of the failures
of the plugins that it loads there. -/
structure OuterLaw (P : World → Option Failure → World → Prop) : Prop extends Law P where
  elsewhere : ∀ w r, P w none (w.noted (.record r .made))
  raised : ∀ w f, P w (some f) (w.noted (.raised f))
  line : ∀ w text, P w none (w.noted (.line text))
  errorLine : ∀ w text, P w none (w.noted (.errorLine text))
  console : ∀ w level, P w none { w with console := level }

section
variable {P : World → Option Failure → World → Prop} (law : OuterLaw P)
include law

theorem OuterLaw.sayElsewhere (logger : String) (level : Level) (message : String)
    (extra : Members) (traceback : Bool) :
    Obeys P (Session.sayElsewhere logger level message extra traceback) := by
  intro w
  unfold Session.sayElsewhere
  split
  · exact law.elsewhere w _
  · exact law.refl w

theorem OuterLaw.leave (stop : Stop) : Obeys P (CommandLine.leave stop) := by
  cases stop with
  | help => exact .bind law.toLaw (fun w => law.line w _) fun _ => .pure law.toLaw _
  | version => exact .bind law.toLaw (fun w => law.line w _) fun _ => .pure law.toLaw _
  | refused program message =>
    exact .bind law.toLaw (fun w => law.errorLine w _) fun _ => .pure law.toLaw _

theorem OuterLaw.readSettings : Obeys P CommandLine.readSettings := by
  refine .get_bind fun w =>
    .bind law.toLaw (.lift law.toLaw fun _ h => isAbort_of_readEnvironmentFile h) fun file =>
    .bind law.toLaw (.forM law.toLaw fun _ _ w => law.errorLine w _) fun _ => ?_
  cases hread : Settings.read w.environment w.tree with
  | ok settings => exact .pure law.toLaw _
  | error failure =>
    dsimp only
    split
    · exact .bind law.toLaw (fun w => law.errorLine w _) fun _ =>
        .bind law.toLaw (fun w => law.errorLine w _) fun _ => .pure law.toLaw _
    · exact .throw law.toLaw (isAbort_of_read hread)

theorem OuterLaw.readModel (file : Path) : Obeys P (CommandLine.readModel file) := by
  refine .get_bind fun w => ?_
  cases hload : Model.load w.tree file with
  | ok model => exact .pure law.toLaw _
  | error failure =>
    dsimp only
    split
    · exact .bind law.toLaw (law.sayElsewhere _ _ _ _ _) fun _ => .pure law.toLaw _
    · exact .bind law.toLaw (law.sayElsewhere _ _ _ _ _) fun _ =>
        .bind law.toLaw (fun w => law.errorLine w _) fun _ => .pure law.toLaw _
    · exact .throw law.toLaw (isAbort_of_load hload)

theorem OuterLaw.registerPlugin (registry : Registry) (name : String) (plugin : StepPlugin) :
    Obeys P (Session.registerPlugin registry name plugin) := by
  unfold Session.registerPlugin
  split
  · exact .bind law.toLaw (law.sayElsewhere _ _ _ _ _) fun _ => .pure law.toLaw _
  · cases plugin with
    | unloadable failure => exact fun w => law.raised w failure
    | performer actions =>
      dsimp only
      unfold registerHandler
      split
      · exact .bind law.toLaw (law.sayElsewhere _ _ _ _ _) fun _ => .pure law.toLaw _
      · exact .pure law.toLaw _

theorem OuterLaw.installedRegistry : Obeys P Session.installedRegistry :=
  .get_bind fun w => .foldlM law.toLaw (fun _ _ => law.registerPlugin _ _ _) w.steps []

theorem OuterLaw.validate (setup : Setup) (file : Path) :
    Obeys P (CommandLine.validate setup file) :=
  .bind law.toLaw (.lift law.toLaw fun _ h => Model.isAbort_of_validate h) fun _ w => law.line w _

theorem OuterLaw.guarded {x : Run Unit} (hx : Obeys P x) : Obeys P (CommandLine.guarded x) := by
  refine .bind law.toLaw (.attempt law.toLaw hx) fun result => ?_
  split
  · exact .pure law.toLaw _
  · split
    · exact .bind law.toLaw (law.sayElsewhere _ _ _ _ _) fun _ =>
        .bind law.toLaw (fun w => law.errorLine w _) fun _ => .pure law.toLaw _
    · exact .bind law.toLaw (law.sayElsewhere _ _ _ _ _) fun _ => .pure law.toLaw _

/-- What holds of workflows holds of the program around them. -/
theorem OuterLaw.run (hworkflow : ∀ setup a, Obeys P (runWorkflow setup a))
    (words : List String) : Obeys P (CommandLine.run words) := by
  unfold CommandLine.run
  split
  · exact law.leave _
  · refine .bind law.toLaw ?_ fun _ => .pure law.toLaw _
    refine .bind law.toLaw law.readSettings fun settings => ?_
    split
    · refine .bind law.toLaw (fun w => law.console w _) fun _ =>
        .bind law.toLaw (law.readModel _) fun model => ?_
      split
      · refine law.guarded ?_
        split
        · exact law.validate _ _
        · exact hworkflow _ _
      · exact .pure law.toLaw _
    · exact .pure law.toLaw _

end

/-! ## Extensions -/

theorem obeys_loadExtension {P : World → Option Failure → World → Prop} (law : Law P)
    (helsewhere : ∀ w r, P w none (w.noted (.record r .made)))
    (hfactory : ∀ w name properties, P w none (w.noted (.factory name properties)))
    (hraise : ∀ {β : Type} f, Obeys P (raise f : Run β))
    (henlist : ∀ listener, Obeys P (enlist listener)) (name : String) (spec : ExtensionSpec) :
    Obeys P (loadExtension name spec) := by
  have hsay : ∀ logger level message extra traceback,
      Obeys P (Session.sayElsewhere logger level message extra traceback) := by
    intro logger level message extra traceback w
    unfold Session.sayElsewhere
    split
    · exact helsewhere w _
    · exact law.refl w
  unfold loadExtension
  split
  · exact .bind law (hsay _ _ _ _ _) fun _ => .pure law _
  · refine .bind law (.pure law PUnit.unit) fun _ => .get_bind fun w => ?_
    split
    · exact .throw law rfl
    · -- a plugin may fail with an abort, which it raises
      have hmake : ∀ extension : Extension, Obeys P (extension.make name spec.properties) := by
        intro extension
        unfold Extension.make
        split
        · exact hraise _
        · refine .bind law (fun w => hfactory w _ _) fun _ => ?_
          split
          · exact .pure law _
          · exact .pure law _
          · exact .throw law rfl
          · exact hraise _
      have hadopt : ∀ made : Made, Obeys P (made.adopt spec.tolerant) := by
        intro made
        unfold Made.adopt
        split
        · exact .pure law _
        · split
          · exact .pure law _
          · exact hraise _
      exact .bind law (hmake _) fun made => .bind law (hadopt made) fun _ =>
        .bind law (henlist _) fun _ => hsay _ _ _ _ _

/-! ## The whole program -/

/-- What a workflow comes to once the extensions are loaded, but for the closing of the
listeners. -/
def block (setup : Setup) (a : Arguments) (registry : Registry) : Run Unit := do
  openContext setup a.filters (if a.dryRun then some true else none)
  let items ← closingLogOnFailure do
    let items ← (registry.plan (underscored a.command) : Except Failure _)
    makeWorkflow setup items
  execute setup (.on setup.model.hooks none) items

theorem runWorkflow_eq (setup : Setup) (a : Arguments) :
    runWorkflow setup a = (do
      let registry ← installedRegistry
      loadExtensions setup.model.extensions
      ensuring (block setup a registry) cleanup) := rfl

/-- A law that holds of all that the program does. Something may be done in any case, whether the
part before it failed or not, and fail as well, so a law says what comes of both together. -/
structure ProgramLaw (P : World → Option Failure → World → Prop) : Prop
    extends RunnerLaw P, OuterLaw P where
  act : ∀ w act, P w none (w.noted (.act act))
  factory : ∀ w name properties, P w none (w.noted (.factory name properties))
  opened : ∀ w file,
    P w none { w with log := { w.log with trace := some file }, threshold := some .debug }
  validated : ∀ w, P w none { w with validated := true }
  andThen : ∀ {u e v e' w}, P u e v → P v e' w → P u (e'.or e) w

section
variable {P : World → Option Failure → World → Prop} (law : ProgramLaw P)
include law

theorem ProgramLaw.cleanup : Obeys P Session.cleanup := fun w => law.step (.cleanup w)

theorem ProgramLaw.closeLog : Obeys P Session.closeLog := fun w => law.step (.closeLog w)

theorem ProgramLaw.loadExtensions (specs : List (String × ExtensionSpec)) :
    Obeys P (Session.loadExtensions specs) :=
  obeys_closingOnFailure law.andThen
    (.forM law.toLaw fun _ _ => obeys_loadExtension law.toLaw law.elsewhere law.factory
      law.toQuietLaw.raise law.toQuietLaw.enlist _ _)
    law.cleanup

theorem ProgramLaw.openContext (setup : Setup) (filters : Filters) (dryRun : Option Bool) :
    Obeys P (Session.openContext setup filters dryRun) := by
  have hfilters : Obeys P (modify fun w =>
      { w with filters := filters, dryRun := dryRun.getD setup.settings.dryRun } : Run Unit) :=
    fun w => law.trans (law.step (.filters w filters)) (law.step (.dryRun _ _))
  refine .bind law.toLaw ?_ fun _ => hfilters
  refine .get_bind fun w => .bind law.toLaw (.lift law.toLaw fun _ h => isAbort_of_makeFolder h)
    fun tree => .bind law.toLaw (.lift law.toLaw fun _ h => isAbort_of_writeText h) fun tree => ?_
  exact fun w => law.trans (law.step (.tree w tree)) (law.opened _ _)

theorem ProgramLaw.makeWorkflow (setup : Setup) (items : List Item) :
    Obeys P (Session.makeWorkflow setup items) := by
  refine .bind law.toLaw ?_ fun _ => .pure law.toLaw _
  refine .get_bind fun w => ?_
  split
  · exact .pure law.toLaw _
  · exact .bind law.toLaw (law.toQuietLaw.say _ _ _ _ _) fun _ =>
      .bind law.toLaw (.lift law.toLaw fun _ h => Model.isAbort_of_validate h) fun _ =>
        law.validated

theorem ProgramLaw.execute (setup : Setup) (runner : HookRunner) (items : List Item) :
    Obeys P (Session.execute setup runner items) := by
  have hclosing : Obeys P (do mark .cleanup; Session.cleanup) :=
    .bind law.toLaw (fun w => law.act w _) fun _ => law.cleanup
  have hlog : Obeys P (do mark .closeLog; Session.closeLog) :=
    .bind law.toLaw (fun w => law.act w _) fun _ => law.closeLog
  exact obeys_ensuring law.andThen
    (obeys_ensuring law.andThen (law.toRunnerLaw.runSession setup runner items) hclosing) hlog

theorem ProgramLaw.block (setup : Setup) (a : Arguments) (registry : Registry) :
    Obeys P (CommandLine.block setup a registry) :=
  .bind law.toLaw (law.openContext _ _ _) fun _ =>
    .bind law.toLaw (obeys_closingLogOnFailure law.andThen
      (.bind law.toLaw (.lift law.toLaw fun _ h => isAbort_of_plan h) fun _ =>
        law.makeWorkflow _ _) law.closeLog) fun _ =>
    law.execute _ _ _

theorem ProgramLaw.runWorkflow (setup : Setup) (a : Arguments) :
    Obeys P (CommandLine.runWorkflow setup a) :=
  .bind law.toLaw law.toOuterLaw.installedRegistry fun registry =>
    .bind law.toLaw (law.loadExtensions _) fun _ =>
    obeys_ensuring law.andThen (law.block setup a registry) law.cleanup

/-- A law of all that the program does holds of every run of it. -/
theorem ProgramLaw.run (words : List String) : Obeys P (CommandLine.run words) :=
  law.toOuterLaw.run law.runWorkflow words

end

end ReleaseRunner.CommandLine
