import ReleaseRunner.Proofs.Session.Following

/-!
# The lifecycle of a session

`Lifecycle` says which exchanges a run of a workflow is meant to come to, and nothing about how
they come about. The main statements say that every run that no abort ends comes to exchanges
of this kind, which really take place (`execute_lifecycle`), and that the verdict over these
exchanges is what the run ends with (`execute_verdict`).

Each function of the runner has one statement here, which tells its exchanges and its result;
the one over the items is an induction on them. What comes after the end of the session is told
with the outcome that is kept and the records that tell one (`Conclusion`).
-/

namespace ReleaseRunner.Session

open Config Log

/-! ## The reference -/

/-- The exchanges over items. An item is not begun where a listener halts the run before it. A
run goes on after an item that was performed, unless a listener halts it, and after one that
failed if a listener failed over that too, which was tolerated, and none halts it. -/
inductive ItemsRun : List Item → List Exchange → Prop
  | done : ItemsRun [] []
  | notBegun {item : Item} {items : List Item} {before : Delivery} (h : before.halted.isSome) :
      ItemsRun (item :: items) [.before item before]
  | succeeded {item : Item} {items : List Item} {before success : Delivery} {t : List Exchange}
      (hbefore : before.halted = none) (hsuccess : success.halted = none)
      (rest : ItemsRun items t) :
      ItemsRun (item :: items)
        (.before item before :: .invoke item none :: .succeeded item success :: t)
  | stopped {item : Item} {items : List Item} {before success : Delivery}
      (hbefore : before.halted = none) (hsuccess : success.halted.isSome) :
      ItemsRun (item :: items)
        [.before item before, .invoke item none, .succeeded item success]
  | tolerated {item : Item} {items : List Item} {before failure : Delivery} {cause : Failure}
      {t : List Exchange} (hbefore : before.halted = none)
      (hfailure : failure.halted = none ∧ failure.tolerated ≠ []) (rest : ItemsRun items t) :
      ItemsRun (item :: items)
        (.before item before :: .invoke item (some cause) :: .failed item cause failure :: t)
  | failed {item : Item} {items : List Item} {before failure : Delivery} {cause : Failure}
      (hbefore : before.halted = none)
      (hfailure : ¬(failure.halted = none ∧ failure.tolerated ≠ [])) :
      ItemsRun (item :: items)
        [.before item before, .invoke item (some cause), .failed item cause failure]

/-- The exchanges from the hooks in front of the session to its end. The session is ended once
if it was started and not halted at once. -/
inductive Driven (items : List Item) : List Exchange → Prop
  | hookFailed (cause : Failure) : Driven items [.beforeHooks (some cause)]
  | notStarted {start : Delivery} (h : start.halted.isSome) :
      Driven items [.beforeHooks none, .sessionStart start]
  | ran {start : Delivery} {t : List Exchange} (h : start.halted = none)
      (hitems : ItemsRun items t) (stop : Delivery) :
      Driven items (.beforeHooks none :: .sessionStart start :: (t ++ [.sessionEnd stop]))

/-- The exchanges of a run. In every case the end is stamped and the report is written, then
follow the hooks that belong to the verdict, and the listeners and the log are closed. Nothing
but these is left where the report cannot be written. -/
inductive Lifecycle (items : List Item) : List Exchange → Prop
  | unreported {t : List Exchange} (h : Driven items t) (cause : Failure) :
      Lifecycle items (t ++ [.stamp, .report (some cause), .cleanup, .closeLog])
  | succeeded {t : List Exchange} (h : Driven items t) (hverdict : verdict t = .success)
      (hooks : Option Failure) :
      Lifecycle items
        (t ++ [.stamp, .report none, .closingHooks .success none hooks, .cleanup, .closeLog])
  | failed {t : List Exchange} {source : Source} {cause : Failure} (h : Driven items t)
      (hverdict : verdict t = .failure source cause)
      (hsource : source = .step ∨ source = .endListener) (hooks : Option Failure) :
      Lifecycle items
        (t ++ [.stamp, .report none, .closingHooks .failure (some cause) hooks, .cleanup,
          .closeLog])
  | stopped {t : List Exchange} {source : Source} {cause : Failure} (h : Driven items t)
      (hverdict : verdict t = .failure source cause)
      (hsource : source ≠ .step ∧ source ≠ .endListener) :
      Lifecycle items (t ++ [.stamp, .report none, .cleanup, .closeLog])

/-! ## The failures kept on the way -/

/-- The failures that exchanges bring, by source. -/
def setbacksOf (t : List Exchange) : Setbacks where
  beforeHook := lastOf .beforeHook t
  startListener := lastOf .startListener t
  step := lastOf .step t
  endListener := lastOf .endListener t
  loopListener := lastOf .loopListener t

/-- Failures from before the items with those that the items bring. -/
def afterItems (setbacks : Setbacks) (t : List Exchange) : Setbacks :=
  { setbacks with
    step := (lastOf .step t).or setbacks.step
    loopListener := (lastOf .loopListener t).or setbacks.loopListener }

/-- The failures that were kept by source decide as the exchanges themselves do. -/
theorem resolve_setbacksOf (t : List Exchange) : (setbacksOf t).resolve = verdict t := by
  unfold setbacksOf Setbacks.resolve verdict precedence
  simp only [List.findSome?_cons, List.findSome?_nil]
  -- one source after the other, in the order in which they decide
  cases lastOf .beforeHook t with
  | some f => rfl
  | none =>
    cases lastOf .endListener t with
    | some f => rfl
    | none =>
      cases lastOf .step t with
      | some f => rfl
      | none =>
        cases lastOf .startListener t with
        | some f => rfl
        | none => cases lastOf .loopListener t <;> rfl

/-- Items bring no failures but their own and those of the listeners between them. -/
theorem ItemsRun.lastOf_eq_none {items : List Item} {t : List Exchange} (h : ItemsRun items t)
    (source : Source) (hstep : source ≠ .step) (hloop : source ≠ .loopListener) :
    lastOf source t = none := by
  induction h with
  | done => rfl
  | succeeded _ _ _ ih =>
    simp [lastOf_cons, ih, Exchange.failure?, hloop]
  | tolerated _ _ _ ih =>
    simp [lastOf_cons, ih, Exchange.failure?, hstep, hloop]
  | _ => simp [lastOf_cons, Exchange.failure?, hstep, hloop]

section
variable {setup : Setup} {runner : HookRunner}

/-! ## The items -/

theorem follows_fireBefore (item : Item) : Follows setup runner (fireBefore item.stage.name)
    (fun halt t => ∃ d, t = [.before item d] ∧ halt = d.halted.map (·.cause)) Never :=
  .halted (.before item) (.fire _) (fun _ => rfl) (fun _ => ⟨_, rfl, rfl⟩) fun _ _ _ h => h

theorem follows_fireSucceeded (item : Item) : Follows setup runner (fireSucceeded item.stage.name)
    (fun halt t => ∃ d, t = [.succeeded item d] ∧ halt = d.halted.map (·.cause)) Never :=
  .halted (.succeeded item) (.fire _) (fun _ => rfl) (fun _ => ⟨_, rfl, rfl⟩) fun _ _ _ h => h

theorem follows_fireFailed (item : Item) (cause : Failure) :
    Follows setup runner (fireFailed item.stage.name cause)
      (fun answer t => ∃ d, t = [.failed item cause d] ∧
        answer = (d.halted.map (·.cause), !d.tolerated.isEmpty)) Never :=
  .fired (.failed item cause) (.fire _) (fun _ => rfl) (fun _ => ⟨_, rfl, rfl⟩) (fun _ _ _ h => h)
    fun d => .pure ⟨d, rfl, rfl⟩

theorem follows_runItems : ∀ (items : List Item) (setbacks : Setbacks),
    Follows setup runner (runItems items setbacks)
      (fun setbacks' t => ItemsRun items t ∧ setbacks' = afterItems setbacks t) Never := by
  intro items
  induction items with
  | nil => exact fun setbacks => .pure ⟨.done, rfl⟩
  | cons item items ih =>
    intro setbacks
    refine .murmurs_bind (.setStep _) (.bind (follows_fireBefore item) ?_)
    rintro _ _ ⟨before, rfl, rfl⟩
    cases hbefore : before.halted with
    | some halt =>
      refine .pure ⟨.notBegun (by rw [hbefore]; rfl), ?_⟩
      simp [afterItems, lastOf_cons, Exchange.failure?, hbefore]
    | none =>
      -- the item is invoked; what follows depends on how it ended
      refine .marked (.bind (.attempted (.invoke item) (fun _ => rfl) (fun _ => rfl)
        fun _ _ _ h => h) ?_)
      rintro (cause | _) _ rfl
      · refine .bind (follows_fireFailed item cause) ?_
        rintro _ _ ⟨failure, rfl, rfl⟩
        cases hfailure : failure.halted with
        | some halt =>
          refine .pure ⟨.failed hbefore (by simp [hfailure]), ?_⟩
          simp [afterItems, lastOf_cons, Exchange.failure?, hbefore, hfailure]
        | none =>
          cases htolerated : failure.tolerated with
          | nil =>
            refine .pure ⟨.failed hbefore (by simp [htolerated]), ?_⟩
            simp [afterItems, lastOf_cons, Exchange.failure?, hbefore, hfailure]
          | cons first others =>
            -- only here does the run go on after a failure
            have hon : failure.halted = none ∧ failure.tolerated ≠ [] := by
              rw [hfailure, htolerated]
              exact ⟨rfl, List.cons_ne_nil _ _⟩
            refine (ih _).mono ?_ fun _ _ h => h
            rintro _ t ⟨hrun, rfl⟩
            refine ⟨.tolerated hbefore hon hrun, ?_⟩
            simp [afterItems, lastOf_cons, Exchange.failure?, hbefore, hfailure]
      · refine .bind (follows_fireSucceeded item) ?_
        rintro _ _ ⟨success, rfl, rfl⟩
        cases hsuccess : success.halted with
        | some halt =>
          refine .pure ⟨.stopped hbefore (by rw [hsuccess]; rfl), ?_⟩
          simp [afterItems, lastOf_cons, Exchange.failure?, hbefore, hsuccess]
        | none =>
          refine (ih setbacks).mono ?_ fun _ _ h => h
          rintro _ t ⟨hrun, rfl⟩
          refine ⟨.succeeded hbefore hsuccess hrun, ?_⟩
          simp [afterItems, lastOf_cons, Exchange.failure?, hbefore, hsuccess]

/-! ## The session -/

/-- Hooks that are run as a marked act: their failure is logged and is the answer. -/
theorem follows_attemptHooks {act : Act} {event : Event} (e : Option Failure → Exchange)
    (hact : ∀ failure, (e failure).act = act) (hfired : ∀ failure, (e failure).fired? = none)
    (he : ∀ failure u v, Ends (runHooks runner event) u failure v →
      (e failure).Happens setup runner u v) :
    Follows setup runner (mark act >>= fun _ => attemptHooks runner event)
      (fun failure t => t = [e failure]) Never := by
  refine .marked (.bind (.attempted e hact hfired he) ?_)
  rintro (failure | _) _ rfl
  · exact .murmurs (.bind (.say .hooks (by decide)) (.bind (.trace _) (.pure _))) rfl
  · exact .pure rfl

theorem follows_startSession : Follows setup runner (startSession runner)
    (fun setbacks t =>
      (∃ cause, t = [.beforeHooks (some cause)] ∧ setbacks = { beforeHook := some cause }) ∨
      ∃ d, t = [.beforeHooks none, .sessionStart d] ∧
        setbacks = { startListener := d.halted.map (·.cause) }) Never := by
  refine .marked (.bind (follows_attemptHooks .beforeHooks (fun _ => rfl) (fun _ => rfl)
    fun _ _ _ h => h) ?_)
  rintro (_ | cause) _ rfl
  · exact .fired .sessionStart .fireStart (fun _ => rfl) (fun _ => ⟨_, rfl, rfl⟩)
      (fun _ _ _ h => h) fun d => .pure (.inr ⟨d, rfl, rfl⟩)
  · exact .pure (.inl ⟨cause, rfl, rfl⟩)

theorem follows_runSteps (items : List Item) (setbacks : Setbacks) :
    Follows setup runner (runSteps items setbacks)
      (fun setbacks' t => ∃ t' d, t = t' ++ [.sessionEnd d] ∧ ItemsRun items t' ∧
        setbacks' = { afterItems setbacks t' with endListener := d.halted.map (·.cause) })
      Never := by
  refine .bind (.ensuring (follows_runItems items setbacks) (.setStep none)) ?_
  rintro _ t ⟨hitems, rfl⟩
  exact .fired .sessionEnd .fireEnd (fun _ => rfl) (fun _ => ⟨_, rfl, rfl⟩) (fun _ _ _ h => h)
    fun d => .pure ⟨t, d, rfl, hitems, rfl⟩

/-- The failures that are kept are those of the exchanges. -/
theorem follows_drive (items : List Item) : Follows setup runner (drive runner items)
    (fun setbacks t => Driven items t ∧ setbacks = setbacksOf t) Never := by
  refine .bind follows_startSession ?_
  rintro _ _ (⟨cause, rfl, rfl⟩ | ⟨start, rfl, rfl⟩)
  · refine .pure ⟨.hookFailed cause, ?_⟩
    simp [setbacksOf, lastOf_cons, Exchange.failure?]
  · cases hstart : start.halted with
    | some halt =>
      refine .pure ⟨.notStarted (by rw [hstart]; rfl), ?_⟩
      simp [setbacksOf, lastOf_cons, Exchange.failure?, hstart]
    | none =>
      refine (follows_runSteps items _).mono ?_ fun _ _ h => h
      rintro _ _ ⟨t, stop, rfl, hitems, rfl⟩
      refine ⟨.ran hstart hitems stop, ?_⟩
      -- the items bring nothing from the sources around them
      have hhook := hitems.lastOf_eq_none .beforeHook (by simp) (by simp)
      have hopen := hitems.lastOf_eq_none .startListener (by simp) (by simp)
      have hend := hitems.lastOf_eq_none .endListener (by simp) (by simp)
      simp [setbacksOf, afterItems, lastOf_cons, lastOf_append, Exchange.failure?, hstart, hhook,
        hopen, hend]

/-! ## The end of a run -/

/-- The hooks that belong to an outcome, with the failure they end in. -/
def closingExchanges (outcome : Outcome) (hooks : Option Failure) : List Exchange :=
  match outcome with
  | .success => [.closingHooks .success none hooks]
  | .failure .step cause => [.closingHooks .failure (some cause) hooks]
  | .failure .endListener cause => [.closingHooks .failure (some cause) hooks]
  | .failure _ _ => []

/-- What a run ends with by its outcome. -/
def surfaced : Outcome → Except Failure Unit
  | .success => .ok ()
  | .failure _ cause => .error (propagated cause)

theorem follows_runClosingHooks (outcome : Outcome) :
    Follows setup runner (runClosingHooks runner outcome)
      (fun _ t => ∃ hooks, t = closingExchanges outcome hooks) Never := by
  -- the two kinds of hooks differ in their event alone
  have hrun : ∀ phase cause, closingEvent phase outcome = ⟨sessionScope, phase, cause⟩ →
      Follows setup runner
        (mark (.closingHooks phase) >>= fun _ =>
          discard (attemptHooks runner (closingEvent phase outcome)))
        (fun _ t => ∃ hooks, t = [.closingHooks phase cause hooks]) Never := by
    intro phase cause hevent
    refine .marked (.bind (follows_attemptHooks (.closingHooks phase cause) (fun _ => rfl)
      (fun _ => rfl) ?_) ?_)
    · intro failure u v h
      rw [hevent] at h
      exact h
    · rintro hooks _ rfl
      exact .pure ⟨hooks, rfl⟩
  cases outcome with
  | success => exact hrun .success none rfl
  | failure source cause =>
    cases source with
    | step => exact hrun .failure (some cause) rfl
    | endListener => exact hrun .failure (some cause) rfl
    | _ => exact .pure ⟨none, rfl⟩

/-- The outcome is told in one record, and decides what the run ends with. -/
theorem conclude_told (setup : Setup) (runner : HookRunner) (outcome : Outcome) (duration : String)
    (w : World) :
    ∃ v own record, exec (conclude outcome duration) w = (surfaced outcome, v) ∧
      Accounted setup runner w [] own v ∧ own.filter tellsOutcome = [record] ∧
      record.message = told outcome duration := by
  -- the record that tells the outcome is one of the runner's own
  have haside : ∀ {record : Record}, record.message = told outcome duration →
      Accounted setup runner w [] [record] (w.noted (.record record (w.reach record.level))) := by
    intro record htold
    refine .of_aside (.record w record) rfl fun other hother => ?_
    rw [List.mem_singleton.mp hother]
    exact silent_of_told htold
  cases outcome with
  | success =>
    obtain ⟨record, htold, hrecord⟩ := exec_tell .success "Release succeeded in %s" rfl .info [] rfl
      rfl duration w
    have hown : [record].filter tellsOutcome = [record] := by
      simp [tellsOutcome_told htold]
    exact ⟨_, _, record, hrecord, haside htold, hown, htold⟩
  | failure source cause =>
    obtain ⟨record, htold, hrecord⟩ := exec_tell (.failure source cause) "Release failed after %s"
      (by simp only [heading]; rfl) .error [("outcome", .text source.name)] rfl rfl duration w
    -- the failure is logged after that, which is no telling of the outcome
    obtain ⟨v, hv, hundertone⟩ :=
      Murmurs.trace cause (w.noted (.record record (w.reach record.level)))
    obtain ⟨own, htraced, hnone⟩ : Ongoing setup runner _ [] v := .of_undertone hundertone
    have hown : ([record] ++ own).filter tellsOutcome = [record] := by
      simp [tellsOutcome_told htold, hnone]
    refine ⟨v, _, record, ?_, (haside htold).trans htraced, hown, htold⟩
    have hthrow : exec (trace cause >>= fun _ => (throw (propagated cause) : Run Unit))
        (w.noted (.record record (w.reach record.level))) = (.error (propagated cause), v) := by
      rw [exec_bind_ok hv]
      rfl
    exact (exec_bind_ok hrecord).trans hthrow

/-- The world after the end of the session was stamped. -/
def World.stamped (w : World) : World :=
  { w.noted (.act .stamp) with clock := w.clock.read.2, ended := true }

theorem exec_stampEnd (w : World) : exec stampEnd w = (.ok w.clock.next, w.stamped) := rfl

theorem performed_stamp (w : World) : Performed setup runner w [.stamp] w.stamped :=
  .exchange rfl (.nil _)

theorem follows_reportOutcome (setbacks : Setbacks) :
    Follows setup runner (reportOutcome setup setbacks)
      (fun outcome t => t = [.report none] ∧ outcome = setbacks.resolve)
      (fun f t => t = [.report (some f)]) := by
  refine .murmurs_bind (.setStep none) (.marked (.chain
    (.answered .report (fun _ => rfl) (fun _ => rfl) fun _ _ _ h => h) ?_))
  rintro _ _ rfl
  refine .bind (.settled setbacks.resolve) ?_
  rintro _ _ rfl
  exact .pure ⟨rfl, rfl⟩

/-- Where the report is written, the outcome is kept. -/
theorem outcome_of_reportOutcome {setbacks : Setbacks} {outcome : Outcome} {u v : World}
    (h : exec (reportOutcome setup setbacks) u = (.ok outcome, v)) :
    v.outcome = some outcome := by
  obtain ⟨_, u₁, -, h⟩ := ok_of_exec_bind h
  obtain ⟨_, u₂, -, h⟩ := ok_of_exec_bind h
  obtain ⟨_, u₃, -, h⟩ := ok_of_exec_bind h
  cases h
  rfl

/-- The outcome is left to the runner. -/
def Settled (u : World) (_ : Option Failure) (v : World) : Prop :=
  v.outcome = u.outcome

theorem Settled.law : PluginLaw Settled where
  refl _ := rfl
  fail _ _ _ := rfl
  trans h h' := h'.trans h
  recover h _ := h
  step h := by
    cases h with
    | cleanup =>
      obtain ⟨new, h⟩ := cleanup_cleans _
      unfold Settled
      rw [h.rest]
    | _ => rfl
  heard _ _ _ := rfl
  event _ _ := rfl
  process _ _ := rfl

theorem outcome_of_settled {α : Type} {x : Run α} (hx : Obeys Settled x) {u v : World}
    {r : Except Failure α} (h : exec x u = (r, v)) : v.outcome = u.outcome := by
  have hsettled := hx u
  rw [h] at hsettled
  exact hsettled

/-- The runner does not settle the outcome before the report. -/
theorem Settled.courseLaw : CourseLaw Settled :=
  .ofPlugin Settled.law (fun _ _ => rfl) (fun _ _ => rfl) fun h => h

/-- What comes after the report does not change the outcome. -/
theorem settled_closeUp (runner : HookRunner) (outcome : Outcome) (duration : String) :
    Obeys Settled (closeUp runner outcome duration) :=
  .bind Settled.law.toLaw (Settled.courseLaw.runClosingHooks runner outcome) fun _ =>
    Settled.law.conclude outcome duration

/-- Where the report cannot be written, the outcome is not settled. -/
theorem outcome_of_unreported {setbacks : Setbacks} {f : Failure} {u v : World}
    (h : exec (reportOutcome setup setbacks) u = (.error f, v)) : v.outcome = u.outcome := by
  unfold reportOutcome setStep mark at h
  rw [exec_bind_ok (exec_modify _ _), exec_bind_ok (exec_note _ _), exec_bind] at h
  rcases hr : exec (report setup) _ with ⟨g | _, u'⟩
  · rw [hr] at h
    cases h
    exact (outcome_of_settled (Settled.law.report setup) hr).trans rfl
  · rw [hr] at h
    cases h

end

/-! ## The run as a whole -/

/-- What comes after the end of a session, by the verdict and the duration: the exchanges, the
records which tell an outcome, the outcome that is kept, and the result. Where the report is
written, the hooks of the outcome are run, and it is kept, told once and decides the result. Where
it is not, there is nothing but the failure to write it. -/
inductive Conclusion (outcome : Outcome) (duration : String) :
    List Exchange → List Record → Option Outcome → Except Failure Unit → Prop
  | unreported (cause : Failure) :
      Conclusion outcome duration [.report (some cause)] [] none (.error cause)
  | reported (hooks : Option Failure) {record : Record}
      (h : record.message = told outcome duration) :
      Conclusion outcome duration (.report none :: closingExchanges outcome hooks) [record]
        (some outcome) (surfaced outcome)

/-- What a session comes to before the listeners and the log are closed: either the report
cannot be written, or the verdict is kept and decides the result. -/
def SessionTold (setup : Setup) (runner : HookRunner) (items : List Item) (w : World)
    (result : Except Failure Unit) (v : World) : Prop :=
  ∃ t, Driven items t ∧
    ((∃ f, result = .error f ∧
        Performed setup runner w.opened (t ++ [.stamp, .report (some f)]) v) ∨
      ∃ hooks, result = surfaced (verdict t) ∧ v.outcome = some (verdict t) ∧
        Performed setup runner w.opened
          (t ++ .stamp :: .report none :: closingExchanges (verdict t) hooks) v)

section
variable (setup : Setup) (runner : HookRunner)

/-- The outcome is told once, and decides the result of the session. -/
theorem closeUp_told (outcome : Outcome) (duration : String) (w : World) :
    (∃ f, (exec (closeUp runner outcome duration) w).1 = .error f ∧ f.isAbort = true) ∨
      ∃ hooks v own record, exec (closeUp runner outcome duration) w = (surfaced outcome, v) ∧
        Accounted setup runner w (closingExchanges outcome hooks) own v ∧
        own.filter tellsOutcome = [record] ∧ record.message = told outcome duration := by
  unfold closeUp
  rcases (follows_runClosingHooks outcome).gives w with
    ⟨f, u, hr, habort⟩ | ⟨_, u, _, hr, ⟨own, hown, hnone⟩, hooks, rfl⟩
  · rw [exec_bind_error hr]
    exact .inl ⟨f, rfl, habort⟩
  · rw [exec_bind_ok hr]
    obtain ⟨v, own', record, hv, hown', htells, htold⟩ :=
      conclude_told setup runner outcome duration u
    refine .inr ⟨hooks, v, own ++ own', record, hv, ?_, ?_, htold⟩
    · have hall := hown.trans hown'
      rwa [List.append_nil] at hall
    · rw [List.filter_append, hnone, htells]
      rfl

/-- From the report on, the failures that were told decide. -/
theorem reportOutcome_told (t : List Exchange) (duration : String) {w : World}
    (houtcome : w.outcome = none) :
    let ending := exec (do
      let outcome ← reportOutcome setup (setbacksOf t)
      closeUp runner outcome duration) w
    (∃ f, ending.1 = .error f ∧ f.isAbort = true) ∨
      ∃ rest own, Accounted setup runner w rest own ending.2 ∧
        Conclusion (verdict t) duration rest (own.filter tellsOutcome) ending.2.outcome
          ending.1 := by
  dsimp only
  rcases (follows_reportOutcome (setbacksOf t)).ends w with ⟨f, u, hr, habort⟩ |
    ⟨f, u, _, hr, ⟨own, hown, hnone⟩, rfl⟩ | ⟨outcome, u, _, hr, ⟨own, hown, hnone⟩, rfl, hresolved⟩
  · rw [exec_bind_error hr]
    exact .inl ⟨f, rfl, habort⟩
  · rw [exec_bind_error hr]
    refine .inr ⟨_, own, hown, ?_⟩
    rw [hnone, outcome_of_unreported hr, houtcome]
    exact .unreported f
  · rw [exec_bind_ok hr]
    rw [resolve_setbacksOf] at hresolved
    have hkept := outcome_of_reportOutcome hr
    rw [hresolved] at hkept ⊢
    rcases closeUp_told setup runner (verdict t) duration u with
      habort | ⟨hooks, v, own', record, hv, hown', htells, htold⟩
    · exact .inl habort
    · rw [hv]
      refine .inr ⟨_, own ++ own', hown.trans hown', ?_⟩
      have hsame := outcome_of_settled (settled_closeUp runner (verdict t) duration) hv
      rw [List.filter_append, hnone, htells, hsame, hkept]
      exact .reported hooks htold

/-- A session is opened, driven to its end without a word about the outcome, and then concluded by
the verdict over what happened until then, with the duration from its start to its end. -/
theorem runSession_accounted (items : List Item) (w : World) :
    let session := exec (runSession setup runner items) w
    (∃ f, session.1 = .error f ∧ f.isAbort = true) ∨
      ∃ t u rest own, Driven items t ∧ Ongoing setup runner w.opened t u ∧
        Accounted setup runner u.stamped rest own session.2 ∧
        Conclusion (verdict t) (durationText w.clock.next u.clock.next) rest
          (own.filter tellsOutcome) session.2.outcome session.1 := by
  dsimp only
  obtain ⟨w₁, hannounce, hannounced⟩ := Murmurs.announce w.opened
  have hnone : w₁.outcome = none := outcome_of_settled Settled.courseLaw.announce hannounce
  rw [exec_runSession, exec_bind_ok hannounce]
  rcases (follows_drive items).gives w₁ with
    ⟨f, w₂, hr, habort⟩ | ⟨_, w₂, t, hr, hdriven, hitems, rfl⟩
  · rw [exec_bind_error hr]
    exact .inl ⟨f, rfl, habort⟩
  · -- the stamp never fails, so the report comes in every case
    unfold ending
    rw [exec_bind_ok hr, exec_bind_ok (exec_stampEnd w₂)]
    have hstill : w₂.stamped.outcome = none :=
      (outcome_of_settled (Settled.courseLaw.drive runner items) hr).trans hnone
    refine (reportOutcome_told setup runner t _ hstill).imp id ?_
    rintro ⟨rest, own, hrest, hconclusion⟩
    refine ⟨t, w₂, rest, own, hitems, ?_, hrest, hconclusion⟩
    exact .trans (.of_undertone hannounced) hdriven

/-- The same is told in the chronicle of the session. -/
theorem runSession_concluded (items : List Item) (w : World) :
    let session := exec (runSession setup runner items) w
    (∃ f, session.1 = .error f ∧ f.isAbort = true) ∨
      ∃ t u rest own, Driven items t ∧ Unconcluded setup runner w.opened t u ∧
        Chronicled setup runner u.stamped rest own session.2 ∧
        Conclusion (verdict t) (durationText w.clock.next u.clock.next) rest
          (own.filter tellsOutcome) session.2.outcome session.1 := by
  refine (runSession_accounted setup runner items w).imp id ?_
  rintro ⟨t, u, rest, own, hdriven, hsofar, hrest, hconclusion⟩
  obtain ⟨own', hown', htells⟩ := hrest.chronicled
  rw [← htells] at hconclusion
  exact ⟨t, u, rest, own', hdriven, hsofar.unconcluded, hown', hconclusion⟩

theorem runSession_told (items : List Item) (w : World) :
    (∃ f, (exec (runSession setup runner items) w).1 = .error f ∧ f.isAbort = true) ∨
      SessionTold setup runner items w (exec (runSession setup runner items) w).1
        (exec (runSession setup runner items) w).2 := by
  refine (runSession_concluded setup runner items w).imp id ?_
  rintro ⟨t, u, rest, own, hdriven, ⟨_, hsofar, -⟩, hrest, hconclusion⟩
  have hall := (hsofar.performed.trans (performed_stamp u)).trans hrest.performed
  rw [List.append_assoc] at hall
  refine ⟨t, hdriven, ?_⟩
  -- nothing but the conclusion decides what the records, the outcome and the result are
  generalize own.filter tellsOutcome = tells at hconclusion
  generalize (exec (runSession setup runner items) w).1 = result at hconclusion ⊢
  generalize (exec (runSession setup runner items) w).2.outcome = kept at hconclusion ⊢
  cases hconclusion with
  | unreported f => exact .inl ⟨f, rfl, hall⟩
  | reported hooks _ => exact .inr ⟨hooks, rfl, rfl, hall⟩

/-- After the session the listeners and the log are closed. This fails with an abort or not at
all, and it leaves the outcome alone. -/
theorem execute_ended (items : List Item) (w : World) :
    ∃ result v, exec (execute setup runner items) w = (result, v) ∧
      ((∃ f, result = .error f ∧ f.isAbort = true) ∨
        ∃ u, exec (runSession setup runner items) w = (result, u) ∧ v.outcome = u.outcome ∧
          Chronicled setup runner u [.cleanup, .closeLog] [] v) := by
  rw [exec_execute]
  generalize exec (runSession setup runner items) w = session
  obtain ⟨result, u⟩ := session
  dsimp only
  have hcleanup := OnlyAborts.cleanup (u.noted (.act .cleanup))
  have hsettled : Settled _ _ _ := Settled.law.step (.cleanup (u.noted (.act .cleanup)))
  rcases hr : exec cleanup (u.noted (.act .cleanup)) with ⟨f | _, v⟩
  · exact ⟨_, _, rfl, .inl ⟨f, rfl, hcleanup f v hr⟩⟩
  · rw [hr] at hsettled
    refine ⟨_, _, rfl, .inr ⟨u, rfl, hsettled, ?_⟩⟩
    exact .exchange hr (.exchange rfl (.nil v.sealed))

/-- What a whole run comes to: the session, and then the listeners and the log are closed. -/
theorem execute_told (items : List Item) (w : World) :
    ∃ result v, exec (execute setup runner items) w = (result, v) ∧
      ((∃ f, result = .error f ∧ f.isAbort = true) ∨
        ∃ u, SessionTold setup runner items w result u ∧ v.outcome = u.outcome ∧
          Performed setup runner u [.cleanup, .closeLog] v) := by
  obtain ⟨result, v, hexec, habort | ⟨u, hsession, houtcome, hclosing⟩⟩ :=
    execute_ended setup runner items w
  · exact ⟨result, v, hexec, .inl habort⟩
  · refine ⟨result, v, hexec, ?_⟩
    have htold := runSession_told setup runner items w
    rw [hsession] at htold
    exact htold.imp id fun htold => ⟨u, htold, houtcome, hclosing.performed⟩

end

/-- The hooks that belong to the verdict are those of the reference. -/
theorem lifecycle_of_driven {items : List Item} {t : List Exchange} (h : Driven items t)
    (hooks : Option Failure) :
    Lifecycle items (t ++ .stamp :: .report none :: closingExchanges (verdict t) hooks ++
      [.cleanup, .closeLog]) := by
  rw [List.append_assoc]
  cases hverdict : verdict t with
  | success => exact .succeeded h hverdict hooks
  | failure source cause =>
    cases source with
    | step => exact .failed h hverdict (.inl rfl) hooks
    | endListener => exact .failed h hverdict (.inr rfl) hooks
    | _ => exact .stopped h hverdict ⟨by simp, by simp⟩

/-- In every run that no abort ends, the acts of the runner are those of the reference, each
with the answer that its hooks, its item or its listeners really give at that moment. -/
theorem execute_lifecycle (setup : Setup) (runner : HookRunner) (items : List Item) (w : World) :
    ∃ result v, exec (execute setup runner items) w = (result, v) ∧
      ((∃ f, result = .error f ∧ f.isAbort = true) ∨
        ∃ t, Lifecycle items t ∧ Performed setup runner w.opened t v ∧
          World.acts v.journal = World.acts w.journal ++ t.map Exchange.act) := by
  obtain ⟨result, v, hexec, habort | ⟨u, ⟨t, hdriven, hend⟩, -, hclosing⟩⟩ :=
    execute_told setup runner items w
  · exact ⟨result, v, hexec, .inl habort⟩
  refine ⟨result, v, hexec, .inr ?_⟩
  rcases hend with ⟨f, -, hperformed⟩ | ⟨hooks, -, -, hperformed⟩
  · have hall := hperformed.trans hclosing
    refine ⟨_, ?_, hall, hall.acts⟩
    rw [List.append_assoc]
    exact .unreported hdriven f
  · have hall := hperformed.trans hclosing
    exact ⟨_, lifecycle_of_driven hdriven hooks, hall, hall.acts⟩

/-! ## The verdict -/

/-- How an outcome shows in the result of a run: its cause is raised as it is, and a cause that
nobody may raise, since it is an abort that was only reported, becomes an unexpected failure
that tells it. -/
inductive Surfaces : Outcome → Except Failure Unit → Prop
  | success : Surfaces .success (.ok ())
  | cause (source : Source) {cause : Failure} (h : cause.isAbort = false) :
      Surfaces (.failure source cause) (.error cause)
  | unexpected (source : Source) {cause f : Failure} (h : cause.isAbort = true)
      (hkind : f.kind = .release) (htext : f.text = "Unexpected error")
      (hcause : f.cause? = some cause) : Surfaces (.failure source cause) (.error f)

theorem surfaces_surfaced (outcome : Outcome) : Surfaces outcome (surfaced outcome) := by
  cases outcome with
  | success => exact .success
  | failure source cause =>
    show Surfaces _ (.error (propagated cause))
    unfold propagated
    split
    · next h => exact .unexpected source h rfl rfl rfl
    · next h => exact .cause source (Bool.eq_false_iff.mpr h)

/-- What brings no failure does not change the verdict. -/
theorem verdict_append_of_none {t t' : List Exchange}
    (h : ∀ source, lastOf source t' = none) : verdict (t ++ t') = verdict t := by
  unfold verdict
  simp only [lastOf_append, h, Option.none_or]

/-- In every run that no abort ends, the verdict over the exchanges is what surfaces, where the
report is written. -/
theorem execute_verdict (setup : Setup) (runner : HookRunner) (items : List Item) (w : World) :
    ∃ result v, exec (execute setup runner items) w = (result, v) ∧
      ((∃ f, result = .error f ∧ f.isAbort = true) ∨
        ∃ t, Lifecycle items t ∧ Performed setup runner w.opened t v ∧
          ((∃ f, .report (some f) ∈ t ∧ result = .error f) ∨
            v.outcome = some (verdict t) ∧ Surfaces (verdict t) result)) := by
  obtain ⟨result, v, hexec, habort | ⟨u, ⟨t, hdriven, hend⟩, hkept, hclosing⟩⟩ :=
    execute_told setup runner items w
  · exact ⟨result, v, hexec, .inl habort⟩
  refine ⟨result, v, hexec, .inr ?_⟩
  rcases hend with ⟨f, rfl, hperformed⟩ | ⟨hooks, rfl, houtcome, hperformed⟩
  · have hall := hperformed.trans hclosing
    rw [List.append_assoc] at hall
    exact ⟨_, .unreported hdriven f, hall, .inl ⟨f, by simp, rfl⟩⟩
  · refine ⟨_, lifecycle_of_driven hdriven hooks, hperformed.trans hclosing, .inr ?_⟩
    -- from the stamp on nothing brings a failure that counts
    have hsame : verdict (t ++ .stamp :: .report none :: closingExchanges (verdict t) hooks ++
        [.cleanup, .closeLog]) = verdict t := by
      rw [List.append_assoc]
      refine verdict_append_of_none fun source => ?_
      cases verdict t with
      | success => rfl
      | failure other cause => cases other <;> rfl
    rw [hsame, hkept, houtcome]
    exact ⟨rfl, surfaces_surfaced (verdict t)⟩

end ReleaseRunner.Session
