import ReleaseRunner.Proofs.Session.Lifecycle

/-!
# The failures that a run can keep

A run keeps one failure for each source, and not all combinations come about. `Reachable` says which
ones do, by the exchanges of the run, and `execute_setbacks` says that every run that gets as far as
to resolve its failures has such a combination. The order in which the sources decide is therefore
free in part: only where the end of the session, an item and a listener between items stand towards
each other makes a difference (`Reachable.resolveBy_eq`).
-/

namespace ReleaseRunner

/-! ## Orders of sources -/

namespace Setbacks

/-- The failure that came from a source. -/
def failure? (s : Setbacks) : Source → Option Failure
  | .beforeHook => s.beforeHook
  | .startListener => s.startListener
  | .step => s.step
  | .endListener => s.endListener
  | .loopListener => s.loopListener

/-- The outcome if the first source of an order decides that there is a failure from. -/
def resolveBy (order : List Source) (s : Setbacks) : Outcome :=
  (order.findSome? fun source => (s.failure? source).map (Outcome.failure source)).getD .success

theorem resolveBy_nil (s : Setbacks) : s.resolveBy [] = .success := rfl

theorem resolveBy_cons (s : Setbacks) (source : Source) (order : List Source) :
    s.resolveBy (source :: order) =
      match s.failure? source with
      | some cause => .failure source cause
      | none => s.resolveBy order := by
  unfold resolveBy
  rw [List.findSome?_cons]
  cases s.failure? source <;> rfl

/-- Sources without a failure may be left out of an order. -/
theorem resolveBy_of_sublist {s : Setbacks} {kept order : List Source} (h : kept.Sublist order)
    (hnodup : order.Nodup) (hnone : ∀ source, source ∉ kept → s.failure? source = none) :
    s.resolveBy order = s.resolveBy kept := by
  induction h with
  | slnil => rfl
  | @cons kept order source h ih =>
    obtain ⟨hfresh, hnodup⟩ := List.nodup_cons.mp hnodup
    rw [resolveBy_cons, hnone source fun hkept => hfresh (h.subset hkept)]
    exact ih hnodup hnone
  | @cons_cons kept order source h ih =>
    rw [resolveBy_cons, resolveBy_cons]
    cases hfailure : s.failure? source with
    | some cause => rfl
    | none =>
      refine ih (List.nodup_cons.mp hnodup).2 fun other hother => ?_
      by_cases hsame : other = source
      · rw [hsame, hfailure]
      · exact hnone other (by simp [hsame, hother])

end Setbacks

namespace Session

open Config Log

theorem resolveBy_precedence (s : Setbacks) : s.resolveBy precedence = s.resolve := by
  obtain ⟨beforeHook, startListener, step, endListener, loopListener⟩ := s
  unfold precedence
  simp only [Setbacks.resolveBy_cons, Setbacks.resolveBy_nil, Setbacks.failure?, Setbacks.resolve]
  -- one source after the other, in the order in which they decide
  cases beforeHook with
  | some f => rfl
  | none =>
    cases endListener with
    | some f => rfl
    | none =>
      cases step with
      | some f => rfl
      | none =>
        cases startListener with
        | some f => rfl
        | none => cases loopListener <;> rfl

/-! ## Reachable failures -/

/-- The exchange is one of those over the items. -/
def Exchange.isOverItem : Exchange → Bool
  | before .. | invoke .. | failed .. | succeeded .. => true
  | _ => false

/-- The last exchange over the items is a delivery that a listener halted for this cause. -/
def HaltedBetween (t : List Exchange) (cause : Failure) : Prop :=
  ∃ e fired failure, (t.filter Exchange.isOverItem).getLast? = some e ∧ e.fired? = some fired ∧
    fired.delivery.halted = some failure ∧ failure.cause = cause

/-- What the items raised that were invoked, in order. -/
def raisedBy (t : List Exchange) : List Failure :=
  t.filterMap fun
    | .invoke _ failure => failure
    | _ => none

/-- What a run that comes to the exchanges can have kept when its failures are resolved. The hooks
in front of the session and the listeners at its start each leave no place for other failures. A
listener between items has one if it ended the loop over them, and an item has the last failure that
was raised. -/
structure Reachable (t : List Exchange) (s : Setbacks) : Prop where
  beforeHook : ∀ cause, s.beforeHook = some cause → s = { beforeHook := some cause }
  startListener : ∀ cause, s.startListener = some cause → s = { startListener := some cause }
  loopListener : ∀ cause, s.loopListener = some cause ↔ HaltedBetween t cause
  step : s.step = (raisedBy t).getLast?

/-- Every order resolves them alike in which the end of the session comes before the items, and
these before the listeners between them. -/
theorem Reachable.resolveBy_eq {t : List Exchange} {s : Setbacks} (h : Reachable t s)
    {order : List Source} (hall : order.Perm precedence)
    (horder : [.endListener, .step, .loopListener].Sublist order) :
    s.resolveBy order = s.resolve := by
  have hnodup : order.Nodup := hall.nodup_iff.mpr (by decide)
  -- both orders may be cut down to the sources that there can be a failure from
  have hcut : ∀ kept : List Source, kept.Sublist order → kept.Sublist precedence →
      (∀ source, source ∉ kept → s.failure? source = none) → s.resolveBy order = s.resolve := by
    intro kept hkept hkept' hnone
    rw [← resolveBy_precedence, Setbacks.resolveBy_of_sublist hkept hnodup hnone,
      Setbacks.resolveBy_of_sublist hkept' (by decide) hnone]
  have hmem : ∀ source, source ∈ precedence → [source].Sublist order := fun source hsource =>
    List.singleton_sublist.mpr (hall.mem_iff.mpr hsource)
  cases hhook : s.beforeHook with
  | some cause =>
    refine hcut [.beforeHook] (hmem _ (by decide)) (by decide) fun source hsource => ?_
    rw [h.beforeHook cause hhook]
    cases source <;> first | rfl | exact absurd (List.mem_singleton_self _) hsource
  | none =>
    cases hstart : s.startListener with
    | some cause =>
      refine hcut [.startListener] (hmem _ (by decide)) (by decide) fun source hsource => ?_
      rw [h.startListener cause hstart]
      cases source <;> first | rfl | exact absurd (List.mem_singleton_self _) hsource
    | none =>
      refine hcut _ horder (by decide) fun source hsource => ?_
      cases source with
      | beforeHook => exact hhook
      | startListener => exact hstart
      | _ => exact absurd (by decide) hsource

/-! ## The exchanges of a run -/

theorem ItemsRun.isOverItem {items : List Item} {t : List Exchange} (h : ItemsRun items t) :
    ∀ e ∈ t, e.isOverItem = true := by
  induction h with
  | done => simp
  | succeeded _ _ _ ih => simpa [Exchange.isOverItem] using ih
  | tolerated _ _ _ ih => simpa [Exchange.isOverItem] using ih
  | _ => simp [Exchange.isOverItem]

/-- What may come before the last failure from a source does not matter if it brings none. -/
theorem lastOf_cons_of_none {source : Source} {e : Exchange} {t : List Exchange}
    (he : e.failure? source = none) (h : lastOf source t = t.getLast?.bind (·.failure? source)) :
    lastOf source (e :: t) = (e :: t).getLast?.bind (·.failure? source) := by
  rw [lastOf_cons, he, Option.or_none, h, List.getLast?_cons]
  cases t.getLast? <;> simp [he]

/-- A listener that halts the run between items ends the loop over them, so its failure is brought
by the last exchange, if there is one. -/
theorem ItemsRun.lastOf_loopListener {items : List Item} {t : List Exchange}
    (h : ItemsRun items t) :
    lastOf .loopListener t = t.getLast?.bind (·.failure? .loopListener) := by
  have hlast : ∀ e : Exchange, lastOf .loopListener [e] =
      [e].getLast?.bind (·.failure? .loopListener) := fun e => by simp [lastOf_cons]
  have hgone : ∀ {d : Delivery}, d.halted = none → d.halted.map (·.cause) = none :=
    fun h => by rw [h]; rfl
  induction h with
  | done => rfl
  | notBegun _ => exact hlast _
  | succeeded hbefore hsuccess _ ih =>
    exact lastOf_cons_of_none (hgone hbefore) (lastOf_cons_of_none rfl
      (lastOf_cons_of_none (hgone hsuccess) ih))
  | stopped hbefore _ =>
    exact lastOf_cons_of_none (hgone hbefore) (lastOf_cons_of_none rfl (hlast _))
  | tolerated hbefore hfailure _ ih =>
    exact lastOf_cons_of_none (hgone hbefore) (lastOf_cons_of_none rfl
      (lastOf_cons_of_none (hgone hfailure.1) ih))
  | failed hbefore _ =>
    exact lastOf_cons_of_none (hgone hbefore) (lastOf_cons_of_none rfl (hlast _))

/-- An exchange over an item brings a failure of a listener where its delivery was halted. -/
theorem Exchange.failure?_loopListener {e : Exchange} (h : e.isOverItem = true) (cause : Failure) :
    e.failure? .loopListener = some cause ↔
      ∃ fired failure, e.fired? = some fired ∧ fired.delivery.halted = some failure ∧
        failure.cause = cause := by
  cases e with
  | before | failed | succeeded => simp [failure?, fired?, Fired.ofEvent]
  | invoke => simp [failure?, fired?]
  | _ => cases h

/-- The failure of an item that is kept is the last one that was raised. -/
theorem lastOf_step (t : List Exchange) : lastOf .step t = (raisedBy t).getLast? := by
  unfold lastOf raisedBy
  rw [List.getLast?_filterMap]
  congr 1
  funext e
  cases e <;> rfl

/-- The failures of a run up to the end of its session are reachable. -/
theorem Driven.reachable {items : List Item} {t : List Exchange} (h : Driven items t) :
    Reachable t (setbacksOf t) := by
  cases h with
  | hookFailed cause =>
    refine ⟨fun _ h => ?_, fun _ h => ?_, fun _ => ?_, lastOf_step _⟩
    · cases h
      rfl
    · cases h
    · simp [setbacksOf, lastOf_cons, Exchange.failure?, HaltedBetween, Exchange.isOverItem]
  | @notStarted start hhalted =>
    have hnone : ∀ source, source ≠ .startListener →
        lastOf source [.beforeHooks none, .sessionStart start] = none := fun source hsource => by
      simp [lastOf_cons, Exchange.failure?, hsource]
    refine ⟨fun _ h => ?_, fun cause h => ?_, fun _ => ?_, lastOf_step _⟩
    · cases (hnone .beforeHook (by decide)).symm.trans h
    · simp only [setbacksOf] at h ⊢
      rw [h]
      simp [hnone]
    · simp [setbacksOf, hnone, HaltedBetween, Exchange.isOverItem]
  | @ran start t hstart hitems stop =>
    have hloop : lastOf .loopListener
        (.beforeHooks none :: .sessionStart start :: (t ++ [.sessionEnd stop])) =
          t.getLast?.bind (·.failure? .loopListener) := by
      simp [lastOf_cons, lastOf_append, Exchange.failure?, hitems.lastOf_loopListener]
    have hnone : ∀ source, source = .beforeHook ∨ source = .startListener → lastOf source
        (.beforeHooks none :: .sessionStart start :: (t ++ [.sessionEnd stop])) = none := by
      rintro _ (rfl | rfl)
      · have hhook := hitems.lastOf_eq_none .beforeHook (by simp) (by simp)
        simp [lastOf_cons, lastOf_append, Exchange.failure?, hhook]
      · have hopen := hitems.lastOf_eq_none .startListener (by simp) (by simp)
        simp [lastOf_cons, lastOf_append, Exchange.failure?, hopen, hstart]
    refine ⟨fun _ h => ?_, fun _ h => ?_, fun cause => ?_, lastOf_step _⟩
    · cases (hnone .beforeHook (.inl rfl)).symm.trans h
    · cases (hnone .startListener (.inr rfl)).symm.trans h
    · have hfilter : (Exchange.beforeHooks none :: .sessionStart start ::
          (t ++ [.sessionEnd stop])).filter Exchange.isOverItem = t := by
        simpa [Exchange.isOverItem] using hitems.isOverItem
      unfold HaltedBetween
      simp only [setbacksOf, hloop, hfilter, Option.bind_eq_some_iff]
      refine exists_congr fun e => ?_
      simp only [exists_and_left]
      refine and_congr_right fun he => ?_
      have hover := hitems.isOverItem e (List.mem_of_getLast? he)
      simp only [Exchange.failure?_loopListener hover cause, exists_and_left]

/-! ## Runs that resolve their failures -/

/-- Runs a session up to the moment where its failures are resolved. Gives them and the time that
the session took. -/
def untilResolved (setup : Setup) (runner : HookRunner) (items : List Item) :
    Run (Setbacks × String) := do
  let start ← now
  modify fun w => { w with ended := false, outcome := none }
  announce
  let setbacks ← drive runner items
  let stop ← stampEnd
  setStep none
  mark .report
  report setup
  return (setbacks, durationText start stop)

section
variable (setup : Setup) (runner : HookRunner) (items : List Item)

/-- Resolving the failures comes next, and the session is closed up by what comes of it. -/
theorem runSession_eq : runSession setup runner items = (do
    let (setbacks, duration) ← untilResolved setup runner items
    modify fun w => { w with outcome := some setbacks.resolve }
    closeUp runner setbacks.resolve duration) := by
  simp only [runSession, untilResolved, reportOutcome, bind_assoc, pure_bind]

theorem exec_untilResolved (w : World) :
    exec (untilResolved setup runner items) w =
      exec (do
        announce
        let setbacks ← drive runner items
        let stop ← stampEnd
        setStep none
        mark .report
        report setup
        return (setbacks, durationText w.clock.next stop)) w.opened := by
  unfold untilResolved
  rw [exec_bind_ok (exec_now w), exec_bind_ok (exec_modify _ _)]
  rfl

/-- The outcome that a run leaves is what its failures come to, and it leaves none where it does
not get as far as to resolve them. -/
theorem outcome_of_execute (w : World) :
    (exec (execute setup runner items) w).2.outcome =
      match exec (untilResolved setup runner items) w with
      | (.ok (setbacks, _), _) => some setbacks.resolve
      | (.error _, _) => none := by
  have hcleaned : Settled _ _ _ := Settled.law.step
    (.cleanup ((exec (runSession setup runner items) w).2.noted (.act .cleanup)))
  have hclosed : (exec (execute setup runner items) w).2.outcome =
      (exec (runSession setup runner items) w).2.outcome := by
    rw [exec_execute_world]
    exact hcleaned
  rw [hclosed, runSession_eq]
  rcases hr : exec (untilResolved setup runner items) w with ⟨f | ⟨setbacks, duration⟩, v⟩
  · rw [exec_bind_error hr]
    rw [exec_untilResolved] at hr
    -- the outcome of a run before is forgotten at once, and none is settled after that
    refine (outcome_of_settled ?_ hr).trans rfl
    have law := Settled.law.toLaw
    exact .bind law Settled.courseLaw.announce fun _ =>
      .bind law (Settled.courseLaw.drive runner items) fun _ =>
      .bind law (fun _ => rfl) fun _ => .bind law (fun _ => rfl) fun _ =>
      .bind law (fun _ => rfl) fun _ => .bind law (Settled.law.report setup) fun _ => .pure law _
  · rw [exec_bind_ok hr]
    exact outcome_of_settled (settled_closeUp runner setbacks.resolve duration) rfl

/-- What a run gets through until its failures are resolved, and which ones these are. -/
theorem untilResolved_driven {w v : World} {setbacks : Setbacks} {duration : String}
    (h : exec (untilResolved setup runner items) w = (.ok (setbacks, duration), v)) :
    ∃ t, Driven items t ∧ Performed setup runner w.opened (t ++ [.stamp, .report none]) v ∧
      setbacks = setbacksOf t := by
  rw [exec_untilResolved] at h
  obtain ⟨w₁, hannounce, hannounced⟩ := Murmurs.announce w.opened
  rw [exec_bind_ok hannounce] at h
  rcases (follows_drive items).gives w₁ with
    ⟨f, w₂, hr, -⟩ | ⟨_, w₂, t, hr, hdriven, hitems, rfl⟩
  · rw [exec_bind_error hr] at h
    cases h
  rw [exec_bind_ok hr, exec_bind_ok (exec_stampEnd w₂)] at h
  obtain ⟨_, u, hstep, h⟩ := ok_of_exec_bind h
  obtain ⟨_, u', hmark, h⟩ := ok_of_exec_bind h
  obtain ⟨_, v', hreport, h⟩ := ok_of_exec_bind h
  cases h
  cases hmark
  have hunstepped : Aside w₂.stamped u := by
    cases hstep
    exact ⟨rfl, [], by simp, by simp⟩
  obtain ⟨_, hsofar, -⟩ := (Ongoing.trans (.of_undertone hannounced) hdriven).unconcluded
  have hreported : Performed setup runner w₂ [.stamp, .report none] v :=
    (performed_stamp w₂).trans (.aside hunstepped (.exchange (ends_of_ok hreport) (.nil v)))
  exact ⟨t, hitems, hsofar.performed.trans hreported, rfl⟩

variable {setup runner items}

/-- In every run that gets as far as to resolve its failures these are reachable by what happened
until then. They decide the outcome of the run, and they would decide it alike in every order in
which the end of the session comes before the items, and these before the listeners between them. -/
theorem execute_setbacks {w v : World} {setbacks : Setbacks} {duration : String}
    (h : exec (untilResolved setup runner items) w = (.ok (setbacks, duration), v)) :
    (∃ t, Driven items t ∧ Performed setup runner w.opened (t ++ [.stamp, .report none]) v ∧
      Reachable t setbacks) ∧
    (exec (execute setup runner items) w).2.outcome = some setbacks.resolve ∧
    ∀ order : List Source, order.Perm precedence →
      [.endListener, .step, .loopListener].Sublist order →
        setbacks.resolveBy order = setbacks.resolve := by
  obtain ⟨t, hdriven, hperformed, rfl⟩ := untilResolved_driven setup runner items h
  refine ⟨⟨t, hdriven, hperformed, hdriven.reachable⟩, ?_, fun _ => hdriven.reachable.resolveBy_eq⟩
  rw [outcome_of_execute, h]

/-- A stage fails, and so does a strict listener that is told of it. Both failures are kept, and the
run fails with that of the stage, also if the hooks in front of the session were asked last and the
listeners at its start before all others. -/
theorem execute_setbacks_halted :
    ∃ (setup : Setup) (runner : HookRunner) (item : Item) (w v : World) (setbacks : Setbacks)
      (duration : String),
      exec (untilResolved setup runner [item]) w = (.ok (setbacks, duration), v) ∧
      setbacks.step = some (.plain .value "unsigned") ∧
      setbacks.loopListener = some (.plain .value "unheard") ∧
      setbacks.resolveBy [.startListener, .endListener, .step, .loopListener, .beforeHook] =
        .failure .step (.plain .value "unsigned") := by
  let setup : Setup := {
    model := ⟨⟨"demo", "1.0.0", "SEMVER"⟩, ⟨true, [], [], [], []⟩, []⟩
    settings := ⟨.info, ⟨.here, ["out"]⟩, false, ⟨.here, ["release.json"]⟩⟩ }
  let runner : HookRunner := ⟨setup.model.hooks, "linux"⟩
  let item : Item := ⟨.sign, some ⟨"sign", [.raise (.plain .value "unsigned")]⟩⟩
  let w : World := .withListeners
    [⟨"Strict", false, [], [("sign:failure", [.raise (.plain .value "unheard")])]⟩]
  let setbacks : Setbacks :=
    { step := some (.plain .value "unsigned"), loopListener := some (.plain .value "unheard") }
  have hresult : (exec (untilResolved setup runner [item]) w).1 = .ok (setbacks, "0.000s") := by
    decide +kernel
  rcases hexec : exec (untilResolved setup runner [item]) w with ⟨result, v⟩
  rw [hexec] at hresult
  obtain rfl : result = .ok (setbacks, "0.000s") := hresult
  refine ⟨setup, runner, item, w, v, setbacks, "0.000s", hexec, rfl, rfl, ?_⟩
  have hperm : [Source.startListener, .endListener, .step, .loopListener, .beforeHook].Perm
      precedence := by decide
  exact ((execute_setbacks hexec).2.2 _ hperm (by decide)).trans rfl

end

end Session

end ReleaseRunner
