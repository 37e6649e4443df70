import ReleaseRunner.Proofs.Session.Following
import ReleaseRunner.Proofs.Session.Hooks
import ReleaseRunner.Proofs.Session.Performers

/-!
# Workflows and their items

A workflow is made of the items of the stages of its name, and a run of it performs them in order
(`Invocations`): the first few in every run, however it ends, and all of them without a failure
where it succeeds (`invokes_execute`). An item does what the performer of its stage does, and
nothing but to log that where there is none. Together with what comes of the installed performers
this is `installedRegistry_employed`.
-/

namespace ReleaseRunner.Session

open Config Log

variable {α β : Type}

/-! ## What is performed -/

/-- The steps that the runner began to perform, by name. -/
def World.invoked (entries : List Entry) : List String :=
  (World.acts entries).filterMap fun
    | .invoke step => some step
    | _ => none

/-- No item is begun. -/
def Idle (u : World) (_ : Option Failure) (v : World) : Prop :=
  World.invoked v.journal = World.invoked u.journal

/-- Items are performed one after the other, each with the failure that it ends in, and no others
are begun before, between or after them. -/
inductive Invocations : World → List (Item × Option Failure) → World → Prop
  | nil {u v : World} (h : Idle u none v) : Invocations u [] v
  | cons {u u' v w : World} {item : Item} {failure : Option Failure}
      {t : List (Item × Option Failure)} (hidle : Idle u none u')
      (hitem : Ends item.invoke (u'.noted (.act (.invoke item.stage.name))) failure v)
      (rest : Invocations v t w) : Invocations u ((item, failure) :: t) w

theorem invoked_noted_invoke (w : World) (step : String) :
    World.invoked (w.noted (.act (.invoke step))).journal = World.invoked w.journal ++ [step] := by
  unfold World.invoked World.noted
  rw [World.acts_append, List.filterMap_append]
  rfl

theorem Idle.law : Law Idle where
  refl _ := rfl
  fail _ _ _ := rfl
  trans h h' := h'.trans h
  recover h _ := h

theorem idle_of_actless {x : Run α} (h : Obeys Actless x) : Obeys Idle x :=
  fun w => congrArg (List.filterMap _) (h w)

theorem Idle.tellLaw : TellLaw Idle :=
  { Idle.law with tells := fun _ => idle_of_actless (Actless.law.say _ _ _ _ _) }

theorem Invocations.after {u v w : World} {t : List (Item × Option Failure)}
    (hidle : Idle u none v) (h : Invocations v t w) : Invocations u t w := by
  cases h with
  | nil hidle' => exact .nil (hidle'.trans hidle)
  | cons hidle' hitem rest => exact .cons (hidle'.trans hidle) hitem rest

theorem Invocations.before {u v w : World} {t : List (Item × Option Failure)}
    (h : Invocations u t v) (hidle : Idle v none w) : Invocations u t w := by
  induction h with
  | nil hidle' => exact .nil (hidle.trans hidle')
  | cons hidle' hitem _ ih => exact .cons hidle' hitem (ih hidle)

theorem idle_invoke {item : Item} {failure : Option Failure} {u v : World}
    (h : Ends item.invoke u failure v) : Idle u failure v :=
  h.2 ▸ idle_of_actless (Actless.law.invoke item) u

/-- The items that are performed are those whose beginning is noted. -/
theorem Invocations.invoked {u v : World} {t : List (Item × Option Failure)}
    (h : Invocations u t v) :
    World.invoked v.journal = World.invoked u.journal ++ t.map (·.1.stage.name) := by
  induction h with
  | nil hidle => rw [hidle, List.map_nil, List.append_nil]
  | cons hidle hitem _ ih =>
    rw [ih, idle_invoke hitem, invoked_noted_invoke, hidle, List.map_cons, List.append_assoc]
    rfl

/-- An attempt gives what the computation ends with, or fails with it. -/
theorem ends_of_attempt (x : Run Unit) (w : World) :
    (∃ result v, exec (attempt x) w = (.ok result, v) ∧ Ends x w (failure? result) v) ∨
      ∃ f v, exec (attempt x) w = (.error f, v) ∧ Ends x w (some f) v := by
  rcases hr : exec x w with ⟨f | _, v⟩
  · cases hf : f.isAbort with
    | false => exact .inl ⟨_, v, exec_attempt_caught hr hf, ends_of_error hr⟩
    | true => exact .inr ⟨f, v, exec_attempt_abort hr hf, ends_of_error hr⟩
  · exact .inl ⟨_, v, exec_attempt_ok hr, ends_of_ok hr⟩

/-! ## Computations that perform items -/

/-- In every run of the computation the first few of the items are performed, and where it gives a
result this is as `Q` says. -/
def Invokes (items : List Item) (x : Run α) (Q : α → List (Item × Option Failure) → Prop) : Prop :=
  ∀ w, ∃ t, Invocations w t (exec x w).2 ∧ t.map Prod.fst <+: items ∧
    ∀ a, (exec x w).1 = .ok a → Q a t

namespace Invokes

variable {items : List Item} {x : Run α} {f : α → Run β}
  {Q : α → List (Item × Option Failure) → Prop} {R : β → List (Item × Option Failure) → Prop}

theorem mono {Q' : α → List (Item × Option Failure) → Prop} (h : Invokes items x Q)
    (hQ : ∀ a t, Q a t → Q' a t) : Invokes items x Q' := by
  intro w
  obtain ⟨t, ht, hprefix, hresult⟩ := h w
  exact ⟨t, ht, hprefix, fun a ha => hQ a t (hresult a ha)⟩

/-- Nothing is performed. -/
theorem idle (h : Obeys Idle x) (hQ : ∀ w a, (exec x w).1 = .ok a → Q a []) :
    Invokes items x Q :=
  fun w => ⟨[], .nil (h w), List.nil_prefix, hQ w⟩

theorem pure {a : α} (h : Q a []) : Invokes items (Pure.pure a : Run α) Q :=
  .idle (.pure Idle.law a) fun _ _ ha => Except.ok.inj ha ▸ h

/-- Something is done before the items. -/
theorem idle_bind (hx : Obeys Idle x) (hf : ∀ a, Invokes items (f a) R) :
    Invokes items (x >>= f) R := by
  intro w
  have hidle := hx w
  rw [exec_bind]
  rcases hr : exec x w with ⟨e | a, v⟩
  · rw [hr] at hidle
    exact ⟨[], .nil hidle, List.nil_prefix, by simp⟩
  · rw [hr] at hidle
    obtain ⟨t, ht, hprefix, hresult⟩ := hf a v
    exact ⟨t, .after hidle ht, hprefix, hresult⟩

/-- Something is done after the items. -/
theorem bind (hx : Invokes items x Q) (hf : ∀ a t, Q a t → Invokes [] (f a) fun b _ => R b t) :
    Invokes items (x >>= f) R := by
  intro w
  obtain ⟨t, ht, hprefix, hresult⟩ := hx w
  rw [exec_bind]
  rcases hr : exec x w with ⟨e | a, v⟩
  · rw [hr] at ht
    exact ⟨t, ht, hprefix, by simp⟩
  · rw [hr] at ht hresult
    obtain ⟨t', ht', hnone, hresult'⟩ := hf a t (hresult a rfl) v
    cases t' with
    | cons first t' => exact absurd hnone.length_le (by simp)
    | nil =>
      cases ht' with
      | nil hidle => exact ⟨t, ht.before hidle, hprefix, hresult'⟩

/-- Something is done after the items in any case. -/
theorem ensuring {last : Run Unit} (hx : Invokes items x Q) (hlast : Obeys Idle last) :
    Invokes items (Session.ensuring x last) Q := by
  intro w
  obtain ⟨t, ht, hprefix, hresult⟩ := hx w
  have hidle := hlast (exec x w).2
  rw [exec_ensuring]
  rcases hr : exec last (exec x w).2 with ⟨e | _, v⟩
  · rw [hr] at hidle
    exact ⟨t, ht.before hidle, hprefix, by simp⟩
  · rw [hr] at hidle
    exact ⟨t, ht.before hidle, hprefix, hresult⟩

/-- An item is performed before the others, and its failure is caught unless it is an abort, after
which nothing comes. -/
theorem item {item : Item} {f : Except Failure Unit → Run β}
    (hf : ∀ result, Invokes items (f result) fun b t => R b ((item, failure? result) :: t)) :
    Invokes (item :: items)
      (mark (.invoke item.stage.name) >>= fun _ => attempt item.invoke >>= f) R := by
  intro w
  unfold mark
  rw [exec_bind_ok (exec_note _ w)]
  rcases ends_of_attempt item.invoke (w.noted (.act (.invoke item.stage.name))) with
    ⟨result, v, hattempt, hends⟩ | ⟨e, v, hattempt, hends⟩
  · obtain ⟨t, ht, hprefix, hresult⟩ := hf result v
    rw [exec_bind_ok hattempt]
    exact ⟨_, .cons rfl hends ht, (List.prefix_cons_inj item).mpr hprefix, hresult⟩
  · rw [exec_bind_error hattempt]
    exact ⟨_, .cons rfl hends (.nil rfl), List.prefix_append [item] items, by simp⟩

end Invokes

/-! ## A run -/

theorem idle_mark {act : Act} (h : ∀ step, act ≠ .invoke step) : Obeys Idle (mark act) := by
  intro w
  show World.invoked (w.journal ++ [.act act]) = World.invoked w.journal
  unfold World.invoked
  rw [World.acts_append, List.filterMap_append]
  cases act with
  | invoke step => exact absurd rfl (h step)
  | _ => exact List.append_nil _

theorem idle_setStep (step : Option String) : Obeys Idle (setStep step) :=
  idle_of_actless (Actless.law.setStep step)

theorem idle_fire (event : Event) : Obeys Idle (fire event) :=
  idle_of_actless (Actless.law.deliveryLaw.fire event)

theorem idle_fireBefore (step : String) : Obeys Idle (fireBefore step) :=
  .bind Idle.law (idle_mark (by simp)) fun _ => .bind Idle.law (idle_fire _) fun _ =>
    Idle.tellLaw.haltOf _

theorem idle_fireSucceeded (step : String) : Obeys Idle (fireSucceeded step) :=
  .bind Idle.law (idle_mark (by simp)) fun _ => .bind Idle.law (idle_fire _) fun _ =>
    Idle.tellLaw.haltOf _

theorem idle_fireFailed (step : String) (cause : Failure) : Obeys Idle (fireFailed step cause) :=
  .bind Idle.law (idle_mark (by simp)) fun _ => .bind Idle.law (idle_fire _) fun _ =>
    .bind Idle.law (Idle.tellLaw.haltOf _) fun _ => .pure Idle.law _

theorem idle_attemptHooks (runner : HookRunner) (event : Event) :
    Obeys Idle (attemptHooks runner event) :=
  Idle.tellLaw.attemptHooks (idle_of_actless (Actless.law.runHooks runner event))

theorem idle_startSession (runner : HookRunner) : Obeys Idle (startSession runner) := by
  refine .bind Idle.law (idle_mark (by simp)) fun _ =>
    .bind Idle.law (idle_attemptHooks runner _) fun failure => ?_
  split
  · exact .pure Idle.law _
  · exact .bind Idle.law (idle_mark (by simp)) fun _ =>
      .bind Idle.law (idle_of_actless Actless.law.deliveryLaw.fireStart) fun _ =>
      .bind Idle.law (Idle.tellLaw.haltOf _) fun _ => .pure Idle.law _

theorem idle_runClosingHooks (runner : HookRunner) (outcome : Outcome) :
    Obeys Idle (runClosingHooks runner outcome) := by
  unfold runClosingHooks
  split
  · exact .pure Idle.law _
  · exact .bind Idle.law (idle_mark (by simp)) fun _ =>
      .bind Idle.law (idle_attemptHooks runner _) fun _ => .pure Idle.law _

/-- No item failed, and nothing came between the items. -/
def SparesItems (s : Setbacks) : Prop := s.step = none ∧ s.loopListener = none

/-- A session succeeds only if nothing failed. -/
theorem resolve_eq_success {s : Setbacks} (h : s.resolve = .success) :
    SparesItems s ∧ s.abortedBeforeSteps = false := by
  obtain ⟨beforeHook, startListener, step, endListener, loopListener⟩ := s
  unfold Setbacks.resolve at h
  dsimp only at h
  split at h
  case h_6 => exact ⟨⟨rfl, rfl⟩, rfl⟩
  all_goals cases h

/-- The items are gone through in order. Where nothing failed they were all performed. -/
theorem invokes_runItems : ∀ (items : List Item) (setbacks : Setbacks),
    Invokes items (runItems items setbacks) fun setbacks' t =>
      SparesItems setbacks' → SparesItems setbacks ∧ t = items.map (·, none) := by
  intro items
  induction items with
  | nil => exact fun setbacks => .pure fun h => ⟨h, rfl⟩
  | cons item items ih =>
    intro setbacks
    refine .idle_bind (idle_setStep _) fun _ => .idle_bind (idle_fireBefore _) fun before => ?_
    cases before with
    | some halt => exact .pure fun h => nomatch h.2
    | none =>
      refine .item fun result => ?_
      rcases result with cause | _
      · -- the failure is kept from here on, whether the run goes on or not
        refine .idle_bind (idle_fireFailed _ _) fun failed => ?_
        match failed with
        | (some halt, _) => exact .pure fun h => nomatch h.2
        | (none, true) => exact (ih _).mono fun _ _ hrest h => nomatch (hrest h).1.1
        | (none, false) => exact .pure fun h => nomatch h.1
      · refine .idle_bind (idle_fireSucceeded _) fun success => ?_
        cases success with
        | some halt => exact .pure fun h => nomatch h.2
        | none =>
          refine (ih setbacks).mono fun _ t hrest h => ⟨(hrest h).1, ?_⟩
          rw [(hrest h).2]
          rfl

theorem invokes_drive (runner : HookRunner) (items : List Item) :
    Invokes items (drive runner items) fun setbacks t =>
      setbacks.resolve = .success → t = items.map (·, none) := by
  refine .idle_bind (idle_startSession runner) fun setbacks => ?_
  cases hstart : setbacks.abortedBeforeSteps with
  | true => exact .pure fun h => absurd (resolve_eq_success h).2 (by simp [hstart])
  | false =>
    refine .bind ((invokes_runItems items setbacks).ensuring (idle_setStep none)) ?_
    intro setbacks' t hitems
    refine .idle_bind (idle_mark (by simp)) fun _ =>
      .idle_bind (idle_of_actless Actless.law.deliveryLaw.fireEnd) fun _ =>
      .idle_bind (Idle.tellLaw.haltOf _) fun _ => .pure fun h => ?_
    exact (hitems (resolve_eq_success h).1).2

theorem invokes_reportOutcome (setup : Setup) (setbacks : Setbacks) :
    Invokes [] (reportOutcome setup setbacks) fun outcome _ => outcome = setbacks.resolve :=
  .idle_bind (idle_setStep none) fun _ => .idle_bind (idle_mark (by simp)) fun _ =>
    .idle_bind (idle_of_actless (Actless.law.report setup)) fun _ =>
    .idle_bind (fun _ => rfl) fun _ => .pure rfl

/-- A run that succeeds ends with the outcome of success. -/
theorem invokes_ending (setup : Setup) (runner : HookRunner) (start : Instant)
    (setbacks : Setbacks) :
    Invokes [] (ending setup runner start setbacks) fun _ _ => setbacks.resolve = .success := by
  have hstamp : Obeys Idle stampEnd :=
    .bind Idle.law (idle_mark (by simp)) fun _ => .bind Idle.law (fun _ => rfl) fun _ =>
      .bind Idle.law (fun _ => rfl) fun _ => .pure Idle.law _
  refine .idle_bind hstamp fun stop => .bind (invokes_reportOutcome setup setbacks) ?_
  rintro _ _ rfl
  refine .idle_bind (idle_runClosingHooks runner _) fun _ =>
    .idle (idle_of_actless (Actless.law.conclude _ _)) fun w _ h => ?_
  obtain ⟨v, own, record, hv, -⟩ := conclude_told setup runner setbacks.resolve
    (durationText start stop) w
  rw [hv] at h
  cases hresolve : setbacks.resolve with
  | success => rfl
  | failure source cause =>
    rw [hresolve] at h
    cases h

theorem invokes_runSession (setup : Setup) (runner : HookRunner) (items : List Item) :
    Invokes items (runSession setup runner items) fun _ t => t = items.map (·, none) := by
  intro w
  have hrun : Invokes items (do
      announce
      let setbacks ← drive runner items
      ending setup runner w.clock.next setbacks) fun _ t => t = items.map (·, none) :=
    .idle_bind Idle.tellLaw.announce fun _ => .bind (invokes_drive runner items)
      fun setbacks t ht => (invokes_ending setup runner _ setbacks).mono fun _ _ h => ht h
  obtain ⟨t, ht, hresult⟩ := hrun w.opened
  have hopened : Idle w none w.opened := rfl
  rw [exec_runSession]
  exact ⟨t, .after hopened ht, hresult⟩

/-- A run performs the items in order, the first few of them in every case, and all of them without
a failure where it succeeds. -/
theorem invokes_execute (setup : Setup) (runner : HookRunner) (items : List Item) :
    Invokes items (execute setup runner items) fun _ t => t = items.map (·, none) := by
  have hcleanup : Obeys Idle (do mark .cleanup; cleanup) :=
    .bind Idle.law (idle_mark (by simp)) fun _ =>
      idle_of_actless fun w => Actless.law.step (.cleanup w)
  have hclose : Obeys Idle (do mark .closeLog; closeLog) :=
    .bind Idle.law (idle_mark (by simp)) fun _ =>
      idle_of_actless fun w => Actless.law.step (.closeLog w)
  exact ((invokes_runSession setup runner items).ensuring hcleanup).ensuring hclose

/-! ## The items of a workflow -/

/-- The record that a stage has nothing to do. -/
def nothingToDo (log : SessionLog) (stage : Stage) : Record where
  level := .info
  logger := sessionLogger
  message := "Nothing to do for " ++ stage.name
  extra := log.tagged []
  traceback := false

theorem exec_invoke_of_handler {registry : Registry} {stage : Stage} {handler : Handler}
    (h : registry.handler? stage = some handler) (w : World) :
    exec (registry.item stage).invoke w =
      exec (perform handler.actions) (w.noted (.call (.invoke handler.label))) := by
  unfold Registry.item Item.invoke
  rw [h]
  exact exec_bind_ok (exec_note _ w)

theorem exec_invoke_of_none {registry : Registry} {stage : Stage}
    (h : registry.handler? stage = none) (w : World) :
    exec (registry.item stage).invoke w =
      (.ok (), w.noted (.record (nothingToDo w.log stage) (w.reach .info))) := by
  unfold Registry.item Item.invoke
  rw [h]
  refine exec_say_made rfl ?_
  have htemplate :
      "Nothing to do for %s".toList = "Nothing to do for ".toList ++ '%' :: 's' :: [] := rfl
  rw [Record.make?_of_fill? (isShowable_tagged rfl w.log)
      (fill?_one htemplate (by decide) List.not_mem_nil _),
    shown_tagged w.log rfl, List.append_nil, ← String.toList_append, String.ofList_toList]
  rfl

/-- The record that the configuration is looked at. -/
def validating (log : SessionLog) : Record where
  level := .info
  logger := sessionLogger
  message := "Validating configuration"
  extra := log.tagged []
  traceback := false

/-- The world after the configuration was found valid. -/
def World.checked (w : World) : World :=
  if w.validated then w
  else { w.noted (.record (validating w.log) (w.reach .info)) with validated := true }

/-- A workflow of a valid configuration is made of its items. -/
theorem exec_makeWorkflow {setup : Setup} (h : setup.model.validate = .ok ()) (items : List Item)
    (w : World) : exec (makeWorkflow setup items) w = (.ok items, w.checked) := by
  have hinform : exec (inform "Validating configuration" [] []) w =
      (.ok (), w.noted (.record (validating w.log) (w.reach .info))) := by
    refine exec_say_made rfl ?_
    rw [Record.make?_of_fill? (isShowable_tagged rfl w.log) rfl, shown_tagged w.log rfl]
    rfl
  have hvalidate : exec (validateOnce setup) w = (.ok (), w.checked) := by
    unfold validateOnce World.checked
    rw [exec_bind_ok (exec_get w)]
    split
    · rfl
    · rw [exec_bind_ok hinform, h]
      rfl
  unfold makeWorkflow
  rw [exec_bind_ok hvalidate]
  rfl

/-! ## The installed performers at work -/

/-- A workflow is made of the given stages, in order, and each of them is performed by what a
registry has for it. -/
structure Employs (registry : Registry) (name : String) (stages : List Stage) : Prop where
  /-- Nothing but a valid configuration is needed to make the workflow. -/
  items (setup : Setup) (w : World) (h : setup.model.validate = .ok ()) :
    exec (do
      let items ← (registry.plan name : Except Failure _)
      makeWorkflow setup items) w = (.ok (stages.map registry.item), w.checked)
  /-- A run goes through the items in order, and comes to the end of them if it succeeds. -/
  run (setup : Setup) (runner : HookRunner) :
    Invokes (stages.map registry.item) (execute setup runner (stages.map registry.item))
      fun _ t => t = (stages.map registry.item).map (·, none)
  /-- A stage with a performer is left to it. -/
  handled {stage : Stage} {handler : Handler} (h : registry.handler? stage = some handler)
    (w : World) : exec (registry.item stage).invoke w =
      exec (perform handler.actions) (w.noted (.call (.invoke handler.label)))
  /-- For a stage without one, it is logged that there is nothing to do, and that is all. -/
  unhandled {stage : Stage} (h : registry.handler? stage = none) (w : World) :
    exec (registry.item stage).invoke w =
      (.ok (), w.noted (.record (nothingToDo w.log stage) (w.reach .info)))

theorem employs_plan (registry : Registry) {name : String} {stages : List Stage}
    (h : Plan.stages? name = some stages) : Employs registry name stages where
  items setup w hvalid := by
    unfold Registry.plan
    rw [h]
    exact exec_makeWorkflow hvalid (stages.map registry.item) w
  run setup runner := invokes_execute setup runner _
  handled := exec_invoke_of_handler
  unhandled := exec_invoke_of_none

/-- What comes of the installed performers. What stands under a name of no stage is never looked
at, and where all others can be loaded, performers of different stages may change places and each
workflow employs the last ones. -/
theorem installedRegistry_employed (w : World) :
    ∃ result new,
      exec installedRegistry w = (result, { w with journal := w.journal ++ new }) ∧
      Collects w.steps result new ∧
      (∀ other : World, List.Forall₂ SameStep w.steps other.steps →
        exec installedRegistry other = (result, { other with journal := other.journal ++ new })) ∧
      ∀ registry, result = .ok registry →
        (∀ other : World,
          (∀ name, other.steps.filter (·.1 == name) = w.steps.filter (·.1 == name)) →
          ∃ registry' new', exec installedRegistry other =
              (.ok registry', { other with journal := other.journal ++ new' }) ∧
            ∀ stage, registry'.handler? stage = registry.handler? stage) ∧
        ∀ name stages, Plan.stages? name = some stages → Employs registry name stages := by
  have hcollects := collect_collects w.steps
  refine ⟨_, _, exec_installedRegistry w, hcollects, fun other hsame => ?_, ?_⟩
  · rw [exec_installedRegistry, collect_congr hsame]
  · intro registry hregistry
    refine ⟨fun other hsame => ?_, fun name stages => employs_plan registry⟩
    rw [hregistry] at hcollects
    obtain ⟨registry', hregistry', hhandlers⟩ :=
      hcollects.of_filter hsame (collect_collects other.steps)
    exact ⟨registry', _, by rw [exec_installedRegistry, hregistry'], hhandlers⟩

/-- A world with installed performers. -/
def installing (steps : List (String × StepPlugin)) : World :=
  { World.withListeners [] with steps := steps }

/-- Two performers for one stage, another stage between them, and a name of no stage under which
there is nothing to load. -/
def signedTwice : List (String × StepPlugin) :=
  [("sign", .performer []), ("seal", .broken), ("checksum", .performer []),
    ("sign", .performer [.reset])]

/-- The same with the performers of that stage at the end. -/
def signedLast : List (String × StepPlugin) :=
  [("seal", .broken), ("checksum", .performer []), ("sign", .performer []),
    ("sign", .performer [.reset])]

/-- The second performer signs, wherever that of the other stage stands. -/
theorem installedRegistry_employed_signedTwice :
    ∃ registry new, exec installedRegistry (installing signedTwice) =
        (.ok registry, { installing signedTwice with journal := new }) ∧
      registry.handler? .sign = some ⟨"sign", [.reset]⟩ ∧
      (∃ registry', (exec installedRegistry (installing signedLast)).1 = .ok registry' ∧
        registry'.handler? .sign = some ⟨"sign", [.reset]⟩) ∧
      Employs registry "sign" [.checksum, .sign] := by
  obtain ⟨result, new, hexec, -, -, hregistry⟩ :=
    installedRegistry_employed (installing signedTwice)
  have hresult : (exec installedRegistry (installing signedTwice)).1 = .ok
      [(.sign, ⟨"sign", [.reset]⟩), (.checksum, ⟨"checksum", []⟩)] := rfl
  rw [hexec] at hresult
  obtain ⟨horder, hplans⟩ := hregistry _ hresult
  subst hresult
  have hsame (name : String) :
      signedLast.filter (·.1 == name) = signedTwice.filter (·.1 == name) := by
    by_cases hsign : "sign" = name
    · subst hsign
      rfl
    · have hother : ("sign" == name) = false := beq_eq_false_iff_ne.mpr hsign
      simp [signedLast, signedTwice, List.filter_cons, hother]
  obtain ⟨registry', new', hexec', hhandlers⟩ := horder (installing signedLast) hsame
  exact ⟨_, _, hexec, rfl, ⟨registry', by rw [hexec'], hhandlers .sign⟩,
    hplans "sign" _ (by decide +kernel)⟩

end ReleaseRunner.Session
