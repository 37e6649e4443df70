import ReleaseRunner.Proofs.Session.Account
import ReleaseRunner.Proofs.Session.Discretion
import ReleaseRunner.Proofs.Session.Likeness

/-!
# What discreet listeners cannot change

A run with discreet listeners is the same as a run without any, but for what is noted about them:
the main statement is `execute_withoutListeners`. There is one event over which even a failure that
is tolerated has a say, that about a failed step, since the run goes on after it. So no listener may
fail over that.

Worlds of the two runs are related by `Unheard`. A delivery halts the one run just if it halts the
other, and the failures of listeners that were tolerated are logged and forgotten.
-/

namespace ReleaseRunner.Session

open Config Log

variable {α : Type}

/-! ## The relation -/

/-- The second world has no listeners, those of the first one are discreet, and the deeds of both
runs are the same. -/
structure Unheard (keys : List String) (u v : World) : Prop where
  rest : v = { u with roster := v.roster, journal := v.journal }
  deeds : World.deeds v.journal = World.deeds u.journal
  discreet : u.roster.Discreet keys
  empty : v.roster.registered = []

variable {keys : List String}

namespace Unheard

theorem whispers {u v u' v' : World} (h : Unheard keys u v) (hu : Whispers u none u')
    (hv : Whispers v none v') : Unheard keys u' v' := by
  refine ⟨by rw [hv.rest, h.rest, hu.rest], ?_, hu.roster ▸ h.discreet, hv.roster ▸ h.empty⟩
  rw [hv.deeds, h.deeds, hu.deeds]

/-- Other listeners may take the place of those in both worlds. -/
theorem rosters {u v : World} (h : Unheard keys u v) {r r' : Roster} (hr : r.Discreet keys)
    (hr' : r'.registered = []) :
    Unheard keys { u with roster := r } { v with roster := r' } :=
  ⟨by rw [h.rest], h.deeds, hr, hr'⟩

theorem likeness : Likeness (Unheard keys) where
  rest h := by rw [h.rest]
  noted h entry := by
    refine ⟨by rw [h.rest]; rfl, ?_, h.discreet, h.empty⟩
    unfold World.noted
    rw [World.deeds_append, World.deeds_append, h.deeds]
  changed {u v g} h hg := by
    refine ⟨?_, ?_, ?_, ?_⟩
    · rw [hg.roster v, hg.journal v]
      refine (congrArg g h.rest).trans ?_
      rw [hg u u.programs u.environment v.roster v.journal, hg.programs u, hg.environment u]
    · rw [hg.journal u, hg.journal v, h.deeds]
    · rw [hg.roster u]
      exact h.discreet
    · rw [hg.roster v, h.empty]

end Unheard

/-! ## Events -/

/-- The failures of listeners that are logged are no deeds. -/
theorem Whispers.toldOf (w : World) (d : Delivery) : Whispers w none (w.toldOf d) := by
  refine ⟨rfl, ?_, by simp⟩
  have hnone : World.deeds ((d.failures.flatMap (listenerRecords w.log)).map fun record =>
      .record record (w.reach record.level)) = [] := by
    refine List.filter_eq_nil_iff.mpr fun entry hentry => ?_
    obtain ⟨record, -, rfl⟩ := List.mem_map.mp hentry
    exact Bool.false_ne_true
  unfold World.toldOf
  rw [World.deeds_append, hnone, List.append_nil]

/-- Failures that were tolerated are logged and forgotten. -/
theorem matches_haltOf (halted : Option ListenerFailure) (tolerated : List ListenerFailure) :
    Matches (Unheard keys) (haltOf ⟨halted, tolerated⟩) (haltOf ⟨halted, []⟩) := by
  intro u v h
  rw [exec_haltOf, exec_haltOf]
  exact ⟨rfl, h.whispers (.toldOf u _) (.toldOf v _)⟩

section
variable {fire fire' : Event → Run Bool} {key : String} {k : Delivery → Run α}

/-- After a delivery the runs may go on with different failures that were tolerated, unless
listeners withstand the event. -/
theorem matches_deliver
    (hk : ∀ halted tolerated, (key ∈ keys → tolerated = []) →
      Matches (Unheard keys) (k ⟨halted, tolerated⟩) (k ⟨halted, []⟩)) :
    Matches (Unheard keys) (deliver fire key >>= k) (deliver fire' key >>= k) := by
  intro u v h
  have hdiscreet : v.roster.Discreet [key] := by
    unfold Roster.Discreet
    rw [h.empty]
    simp
  obtain ⟨tolerated, u', hu, hwhispers, hnone⟩ := exec_deliver_discreet h.discreet
  obtain ⟨tolerated', v', hv, hwhispers', hnone'⟩ := exec_deliver_discreet hdiscreet
  have hforced : v.forced = u.forced := by rw [h.rest]
  rw [hnone' List.mem_cons_self, hforced] at hv
  rw [exec_bind_ok hu, exec_bind_ok hv]
  exact hk _ _ hnone u' v' (h.whispers hwhispers hwhispers')

theorem matches_recorded (members : Members)
    (hk : ∀ halted tolerated, (key ∈ keys → tolerated = []) →
      Matches (Unheard keys) (k ⟨halted, tolerated⟩) (k ⟨halted, []⟩)) :
    Matches (Unheard keys) ((do recordEvent members; deliver fire key) >>= k)
      ((do recordEvent members; deliver fire' key) >>= k) := by
  rw [bind_assoc, bind_assoc]
  exact .bind (Unheard.likeness.recordEvent members) fun _ => matches_deliver hk

end

theorem matches_fire {event : Event} {k : Delivery → Run α}
    (hk : ∀ halted tolerated, (event.key ∈ keys → tolerated = []) →
      Matches (Unheard keys) (k ⟨halted, tolerated⟩) (k ⟨halted, []⟩)) :
    Matches (Unheard keys) (fire event >>= k) (fire event >>= k) := by
  unfold fire
  rw [bind_assoc]
  refine Unheard.likeness.get_bind fun u _ _ _ _ => ?_
  dsimp only
  cases u.limits.nesting with
  | zero => exact fun u v h => ⟨rfl, Unheard.likeness.noted h (.raised endless)⟩
  | succ depth => exact matches_recorded event.members hk

/-! ## Listeners that are used by items -/

/-- The action does not register a listener, and leaves it to listeners that they tolerate their
failures. -/
def Action.sparesListeners : Action → Bool
  | .register _ _ _ _ => false
  | .enrol _ => false
  | .policy _ tolerant => tolerant
  | _ => true

/-- What performs the item spares the listeners. -/
def Item.SparesListeners (item : Item) : Prop :=
  ∀ handler ∈ item.handler, ∀ action ∈ handler.actions, action.sparesListeners = true

/-- Changing a policy registers no listener, and changes nothing else about one. -/
theorem Roster.mem_registered_setPolicy {r : Roster} {name : String} {tolerant : Bool}
    {listener : Listener} (h : listener ∈ (r.setPolicy name tolerant).registered) :
    ∃ other ∈ r.registered, listener = other ∨ listener = { other with tolerant := tolerant } := by
  have hmade : ∀ id : Nat, (r.setPolicy name tolerant).made[id]? = some listener →
      ∃ other, r.made[id]? = some other ∧
        (listener = other ∨ listener = { other with tolerant := tolerant }) := by
    intro id hid
    unfold setPolicy at hid
    split at hid
    · rw [List.getElem?_modify] at hid
      obtain ⟨other, hother, rfl⟩ := Option.map_eq_some_iff.mp hid
      refine ⟨other, hother, ?_⟩
      split
      · exact .inr rfl
      · exact .inl rfl
    · exact ⟨listener, hid, .inl rfl⟩
  unfold registered at h ⊢
  rw [Roster.setPolicy_closed, Roster.setPolicy_order] at h
  cases hclosed : r.closed with
  | true =>
    rw [hclosed] at h
    cases h
  | false =>
    rw [hclosed] at h
    obtain ⟨id, hid, hlistener⟩ := List.mem_filterMap.mp h
    obtain ⟨other, hother, hsame⟩ := hmade id hlistener
    exact ⟨other, List.mem_filterMap.mpr ⟨id, hid, hother⟩, hsame⟩

/-- A listener stays discreet when it is told to tolerate its failures. -/
theorem Roster.Discreet.setPolicy {r : Roster} (h : r.Discreet keys) (name : String) :
    (r.setPolicy name true).Discreet keys := by
  intro listener hlistener
  obtain ⟨other, hother, rfl | rfl⟩ := Roster.mem_registered_setPolicy hlistener
  · exact h _ hother
  · obtain ⟨-, hharmless, hwithstands⟩ := h other hother
    exact ⟨rfl, hharmless, hwithstands⟩

theorem matches_setPolicy (name : String) :
    Matches (Unheard keys) (setPolicy name true) (setPolicy name true) := by
  intro u v h
  refine ⟨rfl, h.rosters (h.discreet.setPolicy name) ?_⟩
  refine List.eq_nil_iff_forall_not_mem.mpr fun listener hlistener => ?_
  obtain ⟨other, hother, -⟩ := Roster.mem_registered_setPolicy hlistener
  rw [h.empty] at hother
  cases hother

/-- The listeners of the first world are closed, and there are none of the second. -/
theorem matches_cleanup : Matches (Unheard keys) cleanup cleanup := by
  intro u v h
  have hdiscreet : v.roster.Discreet [] := by
    unfold Roster.Discreet
    rw [h.empty]
    simp
  have hclosed : ∀ r : Roster, r.close.registered = [] := fun _ => rfl
  obtain ⟨u', hu, hwhispers⟩ := exec_cleanup_discreet h.discreet
  obtain ⟨v', hv, hwhispers'⟩ := exec_cleanup_discreet hdiscreet
  rw [hu, hv]
  refine ⟨rfl, (h.rosters ?_ (hclosed v.roster)).whispers hwhispers hwhispers'⟩
  unfold Roster.Discreet
  rw [hclosed]
  simp

theorem matches_act {action : Action} (h : action.sparesListeners = true) :
    Matches (Unheard keys) (act (fun event => return (← fire event).ok) action)
      (act (fun event => return (← fire event).ok) action) := by
  have like : Likeness (Unheard keys) := Unheard.likeness
  cases action with
  | raise failure => exact like.raise failure
  | log level message values extra => exact like.say _ _ _ _ _
  | trace failure => exact like.trace failure
  | step name => exact like.setStep _
  | reset => exact like.setStep _
  | closeLog => exact like.closeLog
  | register name tolerant properties script => cases h
  | enrol name => cases h
  | cleanup => exact matches_cleanup
  | policy name tolerant =>
    cases tolerant with
    | false => cases h
    | true => exact matches_setPolicy name
  | dryRun value => exact like.update fun _ _ _ _ _ => rfl
  | filter filter name => exact like.update fun _ _ _ _ _ => rfl
  | fire event =>
    -- what came of the event is told to the script, which makes nothing of it
    show Matches _ ((fire event >>= fun d => Pure.pure d.ok) >>= fun ok => note (.call (.fired ok)))
      ((fire event >>= fun d => Pure.pure d.ok) >>= fun ok => note (.call (.fired ok)))
    rw [bind_assoc]
    refine matches_fire fun halted tolerated _ u v h => ⟨rfl, h.whispers ?_ ?_⟩
    · exact Whispers.noted u rfl
    · exact Whispers.noted v rfl

theorem matches_invoke {item : Item} (h : item.SparesListeners) :
    Matches (Unheard keys) item.invoke item.invoke := by
  unfold Item.invoke
  split
  · next handler hhandler =>
    exact .bind (Unheard.likeness.note _) fun _ =>
      .forM fun action haction => matches_act (h handler hhandler action haction)
  · exact Unheard.likeness.say _ _ _ _ _

/-! ## Hooks -/

theorem Unheard.processes {u v : World} (h : Unheard keys u v) :
    World.processes v.journal = World.processes u.journal := by
  refine filterMap_eq_of_filter (fun entry hentry => ?_) h.deeds
  cases entry with
  | process start => cases hentry
  | _ => rfl

theorem Unheard.events {u v : World} (h : Unheard keys u v) :
    World.events v.journal = World.events u.journal :=
  events_eq_of_filter (fun _ => rfl) h.deeds

/-- What comes of a process depends on what was started before it, which is the same. -/
theorem matches_startProgram (start : ProcessStart) :
    Matches (Unheard keys) (startProgram start) (startProgram start) := by
  have like : Likeness (Unheard keys) := Unheard.likeness
  unfold startProgram
  split
  · exact .throw _
  · refine like.get_bind fun u programs roster journal h => ?_
    have hprograms : programs = u.programs := congrArg World.programs h.rest
    have hprocesses : World.processes journal = World.processes u.journal := h.processes
    refine .bind (like.note _) fun _ => .bind (like.note _) fun _ => ?_
    dsimp only
    rw [hprograms, hprocesses]
    exact .pure _

/-! ## The run as a whole -/

/-- The key of the event that the item failed, whatever its failure. -/
def Item.failureKey (item : Item) : String :=
  Event.key ⟨item.stage.name, .failure, none⟩

/-- The course of a session is the same where listeners withstand the events about failed items, and
the items spare the listeners. -/
theorem Unheard.course {items : List Item} (hkeys : ∀ item ∈ items, item.failureKey ∈ keys)
    (hitems : ∀ item ∈ items, item.SparesListeners) : CourseLikeness (Unheard keys) items :=
  { Unheard.likeness with
    start := matches_recorded _ fun halted tolerated _ => matches_haltOf halted tolerated
    before := fun _ _ => .bind (Unheard.likeness.mark _) fun _ =>
      matches_fire fun halted tolerated _ => matches_haltOf halted tolerated
    invoke := fun item hitem => matches_invoke (hitems item hitem)
    succeeded := fun _ _ => .bind (Unheard.likeness.mark _) fun _ =>
      matches_fire fun halted tolerated _ => matches_haltOf halted tolerated
    failed := fun item hitem cause => .bind (Unheard.likeness.mark _) fun _ =>
      matches_fire fun halted tolerated hnone => by
        -- here the run looks at the failures that were tolerated, of which there are none
        rw [hnone (hkeys item hitem)]
        exact .bind (matches_haltOf halted []) fun _ => .pure _
    stop := matches_recorded _ fun halted tolerated _ => matches_haltOf halted tolerated }

section
variable {items : List Item} (hkeys : ∀ item ∈ items, item.failureKey ∈ keys)
  (hitems : ∀ item ∈ items, item.SparesListeners) (setup : Setup) (runner : HookRunner)
include hkeys hitems

theorem matches_runSession :
    Matches (Unheard keys) (runSession setup runner items) (runSession setup runner items) := by
  have course : CourseLikeness (Unheard keys) items := Unheard.course hkeys hitems
  have like := course.toLikeness
  have hhooks : ∀ event, Matches (Unheard keys) (runHooks runner event) (runHooks runner event) :=
    like.runHooks matches_startProgram runner
  have hclosing : ∀ outcome, Matches (Unheard keys) (runClosingHooks runner outcome)
      (runClosingHooks runner outcome) := by
    intro outcome
    unfold runClosingHooks
    split
    · exact .pure _
    · exact .bind (like.mark _) fun _ =>
        .bind (fun u v h => like.attemptHooks (hhooks _ u v h)) fun _ => .pure _
  exact .bind like.now fun _ => .bind (like.update fun _ _ _ _ _ => rfl) fun _ =>
    .bind like.announce fun _ =>
    .bind (fun u v h => course.drive (hhooks _ _ _ (like.noted h _))) fun _ =>
    .bind like.stampEnd fun _ =>
    .bind (like.reportOutcome (fun _ _ => Unheard.events) rfl rfl _) fun outcome =>
    .bind (hclosing outcome) fun _ => like.conclude outcome _

theorem matches_execute :
    Matches (Unheard keys) (execute setup runner items) (execute setup runner items) :=
  .ensuring (.ensuring (matches_runSession hkeys hitems setup runner)
    (.bind (Unheard.likeness.mark _) fun _ => matches_cleanup))
    (.bind (Unheard.likeness.mark _) fun _ => Unheard.likeness.closeLog)

end

/-- What two runs come to is the same but for what is noted about listeners: the acts of the runner,
the invocations of items, the processes of hooks and the recorded events in their order, the files
with the report among them, the outcome, and what the run ends with. -/
structure SameDeeds (run other : Except Failure Unit × World) : Prop where
  deeds : World.deeds other.2.journal = World.deeds run.2.journal
  files : other.2.tree = run.2.tree
  outcome : other.2.outcome = run.2.outcome
  result : other.1 = run.1

/-- Discreet listeners that withstand the events about failed items do not show in a run: it is the
same without them. -/
theorem execute_withoutListeners {items : List Item} {w : World}
    (hlisteners : w.roster.Discreet (items.map Item.failureKey))
    (hitems : ∀ item ∈ items, item.SparesListeners) (setup : Setup) (runner : HookRunner) :
    SameDeeds (exec (execute setup runner items) w)
      (exec (execute setup runner items) { w with roster := .empty }) := by
  have hrelated : Unheard (items.map Item.failureKey) w { w with roster := .empty } :=
    ⟨rfl, rfl, hlisteners, rfl⟩
  have hkeys : ∀ item ∈ items, item.failureKey ∈ items.map Item.failureKey :=
    fun _ hitem => List.mem_map_of_mem hitem
  obtain ⟨hresult, hunheard⟩ := matches_execute hkeys hitems setup runner _ _ hrelated
  refine ⟨hunheard.deeds, ?_, ?_, hresult⟩
  · rw [hunheard.rest]
  · rw [hunheard.rest]

/-- A listener fails over everything but the failure of the deployment, which it notes, and the
deployment fails. The run is the same without the listener. -/
theorem execute_withoutListeners_noisy : ∃ (item : Item) (w : World) (setup : Setup)
    (runner : HookRunner), w.roster.registered.map (·.name) = ["Noise"] ∧
    w.roster.Discreet ([item].map Item.failureKey) ∧ (∀ item' ∈ [item], item'.SparesListeners) ∧
    SameDeeds (exec (execute setup runner [item]) w)
      (exec (execute setup runner [item]) { w with roster := .empty }) := by
  let setup : Setup := {
    model := ⟨⟨"demo", "1.0.0", "SEMVER"⟩, ⟨true, [], [], [], []⟩, []⟩
    settings := ⟨.info, ⟨.here, ["out"]⟩, false, ⟨.here, ["release.json"]⟩⟩ }
  let item : Item := ⟨.deploy, some ⟨"deploy", [.raise (.plain .value "boom")]⟩⟩
  let noise : Listener := ⟨"Noise", true, [],
    [("*", [.raise (.plain .runtime "noise")]), ("deploy:failure", [.log .info "noted" [] []])]⟩
  let w : World := World.withListeners [noise]
  have hwithstands : noise.Withstands "deploy:failure" := by
    intro fire w
    have huntaken : Record.refusal? [] = none := rfl
    show failure? (exec (say .info "noted" [] [] false >>= fun _ => Pure.pure ()) w).1 = none
    rcases exec_say_untaken huntaken .info "noted" [] false w with hsay | ⟨_, -, hsay⟩
    · rw [exec_bind_ok hsay]
      rfl
    · rw [exec_bind_ok hsay]
      rfl
  have hdiscreet : w.roster.Discreet ([item].map Item.failureKey) := by
    intro listener hlistener
    rw [show listener = noise from List.mem_singleton.mp hlistener]
    refine ⟨rfl, by decide, fun key hkey => ?_⟩
    rw [show key = "deploy:failure" from List.mem_singleton.mp hkey]
    exact hwithstands
  have hspares : ∀ item' ∈ [item], item'.SparesListeners := by
    simp [item, Item.SparesListeners, Action.sparesListeners]
  exact ⟨item, w, setup, ⟨setup.model.hooks, "linux"⟩, rfl, hdiscreet, hspares,
    execute_withoutListeners hdiscreet hspares setup _⟩

end ReleaseRunner.Session
