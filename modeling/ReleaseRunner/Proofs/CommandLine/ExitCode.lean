import ReleaseRunner.Proofs.CommandLine.Configuration

/-!
# Exit codes

What the code that the program returns tells. Two means that the settings or the configuration
are refused, nought that each part of the command succeeded (`Succeeds`), and one all the rest. The
main statement, `run_exitCode`, says this of every command line in every world, and what the
program fails with instead where it returns nothing. This is an abort, or a file that cannot be read
for another reason than that it is missing: a folder stands at the path of the configuration, a
file on the way to it, or what it holds is no text.
-/

namespace ReleaseRunner.CommandLine

open Config Files Log Session

/-! ## What the command comes to -/

/-- Each part of the command succeeds: the validation of the configuration, or else, one after the
other, that the performers of stages and the extensions are loaded, that the context is opened,
that the workflow is made, and that it is run. -/
inductive Succeeds (a : Arguments) (setup : Setup) (w : World) : Prop
  | validation (h : a.command = validateCommand) (hvalid : setup.model.validate = .ok ())
  | workflow {registry : Registry} {items : List Item} {u₁ u₂ u₃ u₄ : World}
      (h : a.command ≠ validateCommand)
      (hregistry : exec installedRegistry w = (.ok registry, u₁))
      (hload : exec (loadExtensions setup.model.extensions) u₁ = (.ok (), u₂))
      (hopen : exec (openContext setup a.filters (if a.dryRun then some true else none)) u₂ =
        (.ok (), u₃))
      (hplan : registry.plan (underscored a.command) = .ok items)
      (hmake : exec (makeWorkflow setup items) u₃ = (.ok items, u₄))
      (hexecute : (exec (execute setup (.on setup.model.hooks none) items) u₄).1 = .ok ())

theorem exec_guarded (x : Run Unit) (w : World) :
    match exec x w with
    | (.ok (), v) => exec (guarded x) w = (.ok 0, v)
    | (.error f, v) =>
      if f.isAbort then exec (guarded x) w = (.error f, v)
      else ∃ u, exec (guarded x) w = (.ok 1, u) := by
  unfold guarded
  rcases hr : exec x w with ⟨f | _, v⟩
  · dsimp only
    split
    · next hf => exact exec_bind_error (exec_attempt_abort hr hf)
    · next hf =>
      rw [exec_bind_ok (exec_attempt_caught hr (Bool.eq_false_iff.mpr hf))]
      dsimp only
      split
      · obtain ⟨u, hu⟩ := exec_sayElsewhere programLogger .error f.text [] false v
        exact ⟨_, by rw [exec_bind_ok hu]; rfl⟩
      · obtain ⟨u, hu⟩ := exec_sayElsewhere programLogger .error "Release failed" [] true v
        exact ⟨_, by rw [exec_bind_ok hu]; rfl⟩
  · rw [exec_bind_ok (exec_attempt_ok hr)]
    rfl

/-- A workflow that was run has closed its listeners, so nothing is left to be closed after it. -/
theorem exec_cleanup_after_execute {setup : Setup} {runner : HookRunner} {items : List Item}
    {w v : World} {result : Except Failure Unit}
    (h : exec (execute setup runner items) w = (result, v)) : exec cleanup v = (.ok (), v) := by
  obtain ⟨_, _, new, hexec, henveloped⟩ := execute_enveloped setup runner items w
  rw [h] at hexec
  cases hexec
  exact exec_cleanup_of_closed henveloped.closed.1

theorem ok_of_exec_ensuring {α : Type} {x : Run α} {last : Run Unit} {w : World} {a : α}
    (h : (exec (ensuring x last) w).1 = .ok a) : (exec x w).1 = .ok a := by
  rw [exec_ensuring] at h
  split at h
  · exact h
  · cases h

theorem ok_of_exec_closingLogOnFailure {α : Type} {x : Run α} {w v : World} {a : α}
    (h : exec (closingLogOnFailure x) w = (.ok a, v)) : exec x w = (.ok a, v) := by
  rw [exec_closingLogOnFailure] at h
  rcases hr : exec x w with ⟨f | b, u⟩
  · rw [hr] at h
    cases h
  · rw [hr] at h
    exact h

theorem ok_of_exec_lift {α β : Type} {e : Except Failure α} {f : α → Run β} {w v : World} {b : β}
    (h : exec (liftM e >>= f) w = (.ok b, v)) : ∃ a, e = .ok a ∧ exec (f a) w = (.ok b, v) := by
  obtain ⟨a, u, hlift, h⟩ := ok_of_exec_bind h
  rw [exec_lift] at hlift
  cases hlift
  exact ⟨a, rfl, h⟩

theorem succeeds_of_exec_runWorkflow {a : Arguments} {setup : Setup} {w : World}
    (hcommand : a.command ≠ validateCommand) (h : (exec (runWorkflow setup a) w).1 = .ok ()) :
    Succeeds a setup w := by
  obtain ⟨v, hv⟩ : ∃ v, exec (runWorkflow setup a) w = (.ok (), v) := ⟨_, Prod.ext h rfl⟩
  obtain ⟨registry, u₁, hregistry, hv⟩ := ok_of_exec_bind hv
  obtain ⟨_, u₂, hload, hv⟩ := ok_of_exec_bind hv
  have hinner := ok_of_exec_ensuring (congrArg Prod.fst hv)
  obtain ⟨u, hu⟩ : ∃ u, exec _ u₂ = (.ok (), u) := ⟨_, Prod.ext hinner rfl⟩
  obtain ⟨_, u₃, hopen, hu⟩ := ok_of_exec_bind hu
  obtain ⟨items, u₄, hitems, hu⟩ := ok_of_exec_bind hu
  obtain ⟨planned, hplan, hmake⟩ := ok_of_exec_lift (ok_of_exec_closingLogOnFailure hitems)
  obtain ⟨_, u₅, hvalid, hsame⟩ := ok_of_exec_bind hmake
  cases hsame
  exact .workflow hcommand hregistry hload hopen hplan hmake (congrArg Prod.fst hu)

theorem exec_runWorkflow_of_succeeds {a : Arguments} {setup : Setup} {w : World}
    (h : Succeeds a setup w) (hcommand : a.command ≠ validateCommand) :
    (exec (runWorkflow setup a) w).1 = .ok () := by
  cases h with
  | validation h => exact absurd h hcommand
  | @workflow registry items u₁ u₂ u₃ u₄ _ hregistry hload hopen hplan hmake hexecute =>
    obtain ⟨v, hv⟩ : ∃ v, exec (execute setup (.on setup.model.hooks none) items) u₄ =
      (.ok (), v) := ⟨_, Prod.ext hexecute rfl⟩
    have hitems : exec (closingLogOnFailure do
        let items ← (registry.plan (underscored a.command) : Except Failure _)
        makeWorkflow setup items) u₃ = (.ok items, u₄) := by
      rw [exec_closingLogOnFailure, exec_bind_ok (v := u₃) (a := items) (by rw [hplan]; rfl), hmake]
    unfold runWorkflow
    rw [exec_bind_ok hregistry, exec_bind_ok hload, exec_ensuring, exec_bind_ok hopen,
      exec_bind_ok hitems, hv, exec_cleanup_after_execute hv]

theorem task_ok_iff {a : Arguments} {settings : Settings} {model : Model} {w : World} :
    (exec (a.task settings model) w).1 = .ok () ↔ Succeeds a (a.setup settings model) w := by
  unfold Arguments.task
  by_cases hcommand : a.command = validateCommand
  · rw [if_pos (beq_iff_eq.mpr hcommand)]
    constructor
    · intro h
      obtain ⟨v, hv⟩ : ∃ v, exec (validate _ _) w = (.ok (), v) := ⟨_, Prod.ext h rfl⟩
      obtain ⟨_, hvalid, -⟩ := ok_of_exec_lift hv
      exact .validation hcommand hvalid
    · intro h
      cases h with
      | validation _ hvalid =>
        unfold validate
        rw [hvalid]
        rfl
      | workflow h => exact absurd hcommand h
  · rw [if_neg (by rw [beq_iff_eq]; exact hcommand)]
    exact ⟨succeeds_of_exec_runWorkflow hcommand, fun h => exec_runWorkflow_of_succeeds h hcommand⟩

/-! ## Aborts -/

/-- An abort that a computation ends with was raised on the way. -/
def Raises (u : World) (e : Option Failure) (v : World) : Prop :=
  ∃ new, v.journal = u.journal ++ new ∧
    ∀ f, e = some f → f.isAbort = true → f ∈ World.aborts new

theorem Raises.of_passes {u v : World} {e : Option Failure} (h : Passes u e v) :
    Raises u e v := by
  obtain ⟨new, h⟩ := h
  refine ⟨new, h.journal, ?_⟩
  rintro f rfl hf
  rw [h.disciplined.aborts, Option.filter_some, hf]
  exact List.mem_singleton_self f

theorem Raises.andThen {u v w : World} {e e' : Option Failure} (h : Raises u e v)
    (h' : Raises v e' w) : Raises u (e'.or e) w := by
  obtain ⟨new, hnew, hraised⟩ := h
  obtain ⟨new', hnew', hraised'⟩ := h'
  refine ⟨new ++ new', by rw [hnew', hnew, List.append_assoc], fun f he hf => ?_⟩
  rw [World.aborts_append, List.mem_append]
  cases e' with
  | none => exact .inl (hraised f he hf)
  | some g => exact .inr (hraised' f he hf)

private theorem raises_silent {u v : World} (h : v.journal = u.journal) : Raises u none v :=
  ⟨[], by rw [h, List.append_nil], fun _ h => (by cases h)⟩

private theorem raises_noted (w : World) (entry : Entry) : Raises w none (w.noted entry) :=
  ⟨[entry], rfl, fun _ h => (by cases h)⟩

theorem Raises.law : ProgramLaw Raises where
  refl _ := raises_silent rfl
  fail w f h := by
    refine ⟨[], (List.append_nil _).symm, ?_⟩
    rintro g ⟨⟩ hg
    rw [h] at hg
    cases hg
  trans h h' := by
    have := h.andThen h'
    rwa [Option.or_none] at this
  recover h _ := by
    obtain ⟨new, hnew, -⟩ := h
    exact ⟨new, hnew, fun _ h => (by cases h)⟩
  step h := .of_passes (Passes.law.step h)
  process w start := .of_passes (Passes.law.process w start)
  own h := .of_passes (Passes.law.own h)
  untag h := h
  fire event w := .of_passes (Passes.law.fire event w)
  fireStart w := .of_passes (Passes.law.fireStart w)
  fireEnd w := .of_passes (Passes.law.fireEnd w)
  invoke item w := .of_passes (Passes.law.invoke item w)
  elsewhere w r := raises_noted w _
  raised w f := .of_passes (Passes.law.step (.raise w f))
  line w text := raises_noted w _
  errorLine w text := raises_noted w _
  console _ _ := raises_silent rfl
  act w act := raises_noted w _
  factory w name properties := raises_noted w _
  opened _ _ := raises_silent rfl
  validated _ := raises_silent rfl
  andThen := .andThen

/-! ## The codes -/

/-- What the program returns for arguments in a world, and when it fails instead. -/
structure ExitCodes (a : Arguments) (w : World) (result : Except Failure Ending)
    (new : List Entry) : Prop where
  two : result = .ok (.returned 2) ↔ Misconfigured a w
  nought : result = .ok (.returned 0) ↔ ∃ settings model, Configured a w settings model ∧
    Succeeds a (a.setup settings model) (started w settings)
  /-- There is no other code but one. -/
  one : ∀ ending, result = .ok ending → ending ≠ .returned 2 → ending ≠ .returned 0 →
    ending = .returned 1
  /-- It fails with a file that cannot be read, and otherwise with nothing but aborts that were
  raised. -/
  unreadable : ∀ f, Unreadable a w f → result = .error f
  abort : ∀ f, result = .error f → Unreadable a w f ∨ f.isAbort = true ∧ f ∈ World.aborts new
  /-- So it returns a code where each file that is there can be read and nothing aborts. -/
  total : (∀ f, ¬ Unreadable a w f) → World.aborts new = [] → ∃ ending, result = .ok ending

section
variable {a : Arguments} {w : World}

theorem nought_of_succeeds {settings : Settings} {model : Model}
    (h : Configured a w settings model)
    (hsucceeds : Succeeds a (a.setup settings model) (started w settings)) :
    (exec (runCommand a) w).1 = .ok 0 := by
  have hguarded := exec_guarded (a.task settings model) (started w settings)
  rw [exec_of_configured h]
  have hok := task_ok_iff.mpr hsucceeds
  rcases hr : exec (a.task settings model) (started w settings) with ⟨f | _, v⟩
  · rw [hr] at hok
    cases hok
  · rw [hr] at hguarded
    exact congrArg Prod.fst hguarded

/-- The ways a command can end, as what is configured and its parts decide. -/
inductive CommandEnds (a : Arguments) (w : World) : Except Failure Nat → Prop
  | misconfigured (h : Misconfigured a w) : CommandEnds a w (.ok 2)
  | unreadable {f : Failure} (h : Unreadable a w f) : CommandEnds a w (.error f)
  | succeeded {settings : Settings} {model : Model} (h : Configured a w settings model)
      (hparts : Succeeds a (a.setup settings model) (started w settings)) :
      CommandEnds a w (.ok 0)
  | failed : CommandEnds a w (.ok 1)
  | aborted {f : Failure} (h : f.isAbort = true) : CommandEnds a w (.error f)

namespace CommandEnds

theorem misconfigured_of_two (h : CommandEnds a w (.ok 2)) : Misconfigured a w := by
  cases h with
  | misconfigured h => exact h

theorem succeeds_of_nought (h : CommandEnds a w (.ok 0)) :
    ∃ settings model, Configured a w settings model ∧
      Succeeds a (a.setup settings model) (started w settings) := by
  cases h with
  | succeeded h hparts => exact ⟨_, _, h, hparts⟩

theorem eq_one {code : Nat} (h : CommandEnds a w (.ok code)) (h2 : code ≠ 2) (h0 : code ≠ 0) :
    code = 1 := by
  cases h with
  | misconfigured => exact absurd rfl h2
  | succeeded => exact absurd rfl h0
  | failed => rfl

theorem unreadable_or_abort {f : Failure} (h : CommandEnds a w (.error f)) :
    Unreadable a w f ∨ f.isAbort = true := by
  cases h with
  | unreadable h => exact .inl h
  | aborted h => exact .inr h

end CommandEnds

theorem commandEnds (a : Arguments) (w : World) : CommandEnds a w (exec (runCommand a) w).1 := by
  rcases configuration_cases a w with h | ⟨f, h⟩ | ⟨settings, model, h⟩
  · obtain ⟨v, hv⟩ := exec_of_misconfigured h
    rw [hv]
    exact .misconfigured h
  · obtain ⟨v, hv⟩ := exec_of_unreadable h
    rw [hv]
    exact .unreadable h
  · have hguarded := exec_guarded (a.task settings model) (started w settings)
    rcases hr : exec (a.task settings model) (started w settings) with ⟨f | _, v⟩
    · rw [hr] at hguarded
      rw [exec_of_configured h]
      dsimp only at hguarded
      split at hguarded
      · next hf =>
        rw [hguarded]
        exact .aborted hf
      · obtain ⟨u, hu⟩ := hguarded
        rw [hu]
        exact .failed
    · have hparts := task_ok_iff.mp (congrArg Prod.fst hr)
      rw [nought_of_succeeds h hparts]
      exact .succeeded h hparts

/-- What the program returns is what the command returns. -/
theorem fst_exec_run {words : List String} (h : Arguments.read words = .ok a) :
    (exec (run words) w).1 = (exec (runCommand a) w).1.map Ending.returned := by
  unfold run
  rw [h]
  dsimp only
  rw [exec_bind]
  rcases exec (runCommand a) w with ⟨f | code, v⟩ <;> rfl

/-- The codes follow from the ways a command can end, since what decides about one of them also
leads to it. -/
theorem exitCodes_of_read {words : List String} (h : Arguments.read words = .ok a)
    {new : List Entry}
    (habort : ∀ f, (exec (run words) w).1 = .error f → f.isAbort = true → f ∈ World.aborts new) :
    ExitCodes a w (exec (run words) w).1 new := by
  rw [fst_exec_run h] at habort ⊢
  have hmisconfigured : Misconfigured a w → (exec (runCommand a) w).1 = .ok 2 := fun h =>
    let ⟨_, hv⟩ := exec_of_misconfigured h
    congrArg Prod.fst hv
  have hunreadable : ∀ f, Unreadable a w f → (exec (runCommand a) w).1 = .error f := fun f h =>
    let ⟨_, hv⟩ := exec_of_unreadable h
    congrArg Prod.fst hv
  have hsucceeds : (∃ settings model, Configured a w settings model ∧
      Succeeds a (a.setup settings model) (started w settings)) →
      (exec (runCommand a) w).1 = .ok 0 := fun ⟨_, _, h, hsucceeds⟩ =>
    nought_of_succeeds h hsucceeds
  have hends := commandEnds a w
  generalize (exec (runCommand a) w).1 = result at *
  cases result with
  | error f =>
    have hcause : Unreadable a w f ∨ f.isAbort = true ∧ f ∈ World.aborts new :=
      hends.unreadable_or_abort.imp id fun hf => ⟨hf, habort f rfl hf⟩
    refine { two := ⟨fun h => (by cases h), fun h => (by cases hmisconfigured h)⟩
             nought := ⟨fun h => (by cases h), fun h => (by cases hsucceeds h)⟩
             one := fun _ h => (by cases h)
             unreadable := fun g h => by rw [hunreadable g h]; rfl
             abort := fun g h => ?_
             total := fun hreadable hnone => ?_ }
    · cases h
      exact hcause
    · rcases hcause with h | ⟨-, h⟩
      · exact absurd h (hreadable f)
      · rw [hnone] at h
        cases h
  | ok code =>
    refine { two := ⟨fun h => ?_, fun h => by rw [hmisconfigured h]; rfl⟩
             nought := ⟨fun h => ?_, fun h => by rw [hsucceeds h]; rfl⟩
             one := fun ending h h2 h0 => ?_
             unreadable := fun f h => (by cases hunreadable f h)
             abort := fun f h => (by cases h)
             total := fun _ _ => ⟨.returned code, rfl⟩ }
    · cases h
      exact hends.misconfigured_of_two
    · cases h
      exact hends.succeeds_of_nought
    · cases h
      rw [hends.eq_one (fun h => h2 (by rw [h])) (fun h => h0 (by rw [h]))]

end

/-- What the program returns tells what became of its parts, whatever is asked for in whatever
world. -/
theorem run_exitCode (words : List String) (w : World) :
    ∃ result v new, exec (run words) w = (result, v) ∧ v.journal = w.journal ++ new ∧
      match Arguments.read words with
      | .error _ => ∃ code, result = .ok (.left code)
      | .ok a => ExitCodes a w result new := by
  obtain ⟨new, hnew, habort⟩ := Raises.law.run words w
  refine ⟨(exec (run words) w).1, (exec (run words) w).2, new, rfl, hnew, ?_⟩
  cases hread : Arguments.read words with
  | error stop =>
    unfold run
    rw [hread]
    cases stop <;> exact ⟨_, rfl⟩
  | ok a =>
    refine exitCodes_of_read hread fun f hf => habort f ?_
    rw [hf]
    rfl

/-- Where a folder stands at the path of the configuration, the program returns no code, although
nothing aborts. It returns two where there is nothing at that path. -/
theorem run_folder_escapes :
    ∃ w : World, let words := ["validate", "--config", "conf"]
      w.tree.isFolder (Path.read "conf") = true ∧
      (exec (run words) w).1 = .error (Refusal.isAFolder.failure (Path.read "conf")) ∧
      World.aborts (exec (run words) w).2.journal = [] ∧
      (exec (run words) { w with tree := .empty }).1 = .ok (.returned 2) := by
  let w := { World.withListeners [] with tree := Tree.empty.lay ["conf", "x"] (.text "") }
  refine ⟨w, ?_⟩
  decide +kernel

end ReleaseRunner.CommandLine
