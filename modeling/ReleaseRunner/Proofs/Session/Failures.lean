import Mathlib.Data.List.Forall2
import ReleaseRunner.Proofs.Files.Tree
import ReleaseRunner.Proofs.Session.Lifecycle

/-!
# No failure is lost

The outcome of a run tells one failure at most: that of an item may be followed by that of another,
or give way to that of a listener. The log and the report tell all of them. The failures of
listeners are logged after each delivery (`Accounted`), and the log holds nothing back but what lies
below its level (`Discloses`). Each failure of an item is recorded in one event of the runner.
`execute_accounted` puts this together, with the report as it stands in the end.

The runner notes an act before it fires the event, so its own events about failed steps are those
right after such an act (`failureEvents`). Neither scripts nor listeners note acts.
-/

namespace ReleaseRunner.Session

open Config Log Files

/-! ## The events about failed steps -/

/-- The events that the runner recorded about failed steps, each with the step. -/
def failureEvents : List Entry → List (String × Members)
  | .act (.failed step) :: .event members :: rest => (step, members) :: failureEvents rest
  | _ :: rest => failureEvents rest
  | [] => []

/-- They are among the events of the report, in the same order. -/
theorem failureEvents_sublist (entries : List Entry) :
    ((failureEvents entries).map (·.2)).Sublist (World.events entries) := by
  fun_induction failureEvents entries with
  | case1 step members rest ih => exact ih.cons_cons members
  | case2 entry rest hother ih =>
    refine ih.trans ?_
    unfold World.events
    rw [List.filterMap_cons]
    split
    · exact .refl _
    · exact List.sublist_cons_self _ _
  | case3 => exact .refl _

theorem failureEvents_actless {new : List Entry} (h : World.acts new = []) (rest : List Entry) :
    failureEvents (new ++ rest) = failureEvents rest := by
  induction new with
  | nil => rfl
  | cons entry new ih =>
    cases entry with
    | act act => cases h
    | _ => exact ih h

/-- An act and what it leads to, where the act is not that a step failed. -/
theorem failureEvents_act {act : Act} (hact : ∀ step, act ≠ .failed step) {new : List Entry}
    (h : World.acts new = []) (rest : List Entry) :
    failureEvents (.act act :: (new ++ rest)) = failureEvents rest := by
  cases act with
  | failed step => exact absurd rfl (hact step)
  | _ => exact failureEvents_actless h rest

theorem failureEvents_failed (step : String) (members : Members) {new : List Entry}
    (h : World.acts new = []) (rest : List Entry) :
    failureEvents (.act (.failed step) :: .event members :: (new ++ rest)) =
      (step, members) :: failureEvents rest := by
  show _ :: failureEvents (new ++ rest) = _
  rw [failureEvents_actless h]

/-! ## The failures of items -/

/-- What is to be recorded of an exchange, with the step: that it failed, and with what. -/
def Exchange.failing? : Exchange → Option (String × Members)
  | failed item cause _ => some (item.stage.name, (Event.failed item.stage.name cause).members)
  | _ => none

/-- Only the event about a failed step is to be recorded so, and only it begins with its act. -/
theorem Exchange.failing_cases (e : Exchange) :
    (∃ item cause delivery, e = .failed item cause delivery) ∨
      e.failing? = none ∧ ∀ step, e.act ≠ .failed step := by
  cases e with
  | failed item cause delivery => exact .inl ⟨item, cause, delivery, rfl⟩
  | _ => exact .inr ⟨rfl, fun _ h => (by cases h)⟩

/-- The items that failed among exchanges: the step, and what is to be recorded of it, which tells
the failure under its title. -/
def itemFailures (t : List Exchange) : List (String × Members) :=
  t.filterMap fun
    | .invoke item (some cause) => some (item.stage.name,
        [("scope", .text item.stage.name), ("phase", .text "failure"),
          ("failure", .text cause.titled)])
    | _ => none

theorem itemFailures_append (t t' : List Exchange) :
    itemFailures (t ++ t') = itemFailures t ++ itemFailures t' :=
  List.filterMap_append

/-- The runner fires one event for every item that failed, right after it. -/
theorem ItemsRun.failing {items : List Item} {t : List Exchange} (h : ItemsRun items t) :
    t.filterMap Exchange.failing? = itemFailures t := by
  induction h with
  | succeeded _ _ _ ih => exact ih
  | @tolerated item items before failure cause t _ _ _ ih => exact congrArg (_ :: ·) ih
  | _ => rfl

theorem Driven.failing {items : List Item} {t : List Exchange} (h : Driven items t) :
    t.filterMap Exchange.failing? = itemFailures t := by
  cases h with
  | ran _ hitems stop =>
    show List.filterMap _ (_ ++ _) = itemFailures (_ ++ _)
    rw [List.filterMap_append, itemFailures_append, hitems.failing]
    rfl
  | _ => rfl

theorem Lifecycle.failing {items : List Item} {t : List Exchange} (h : Lifecycle items t) :
    t.filterMap Exchange.failing? = itemFailures t := by
  -- what comes after the session is about no item
  cases h with
  | unreported hdriven _ =>
    rw [List.filterMap_append, itemFailures_append, hdriven.failing]
    rfl
  | _ hdriven _ _ =>
    rw [List.filterMap_append, itemFailures_append, hdriven.failing]
    rfl

/-- What is recorded stands after the time. -/
def Stamped (failure event : String × Members) : Prop :=
  event.1 = failure.1 ∧ ∃ time, event.2 = ("timestamp", .text time) :: failure.2

section
variable {setup : Setup} {runner : HookRunner}

theorem Exchange.Happens.journal {e : Exchange} {u v : World} (h : e.Happens setup runner u v) :
    ∃ new, v.journal = u.journal ++ new ∧ World.acts new = [] := by
  obtain ⟨failure, hpasses⟩ := h.obeys Passes.pluginLaw fun w =>
    ⟨[], (List.append_nil _).symm, rfl, by simp [World.acts], .refl _ rfl⟩
  exact exists_actless hpasses h.acts

/-- What is accounted for tells of every failed item in one event. -/
theorem Accounted.failureEvents {u v : World} {t : List Exchange} {own : List Record}
    (h : Accounted setup runner u t own v) :
    ∃ new, v.journal = u.journal ++ new ∧
      List.Forall₂ Stamped (t.filterMap Exchange.failing?) (failureEvents new) := by
  induction h with
  | nil w => exact ⟨[], (List.append_nil _).symm, .nil⟩
  | @aside u v w t new own haside hnew _ _ ih =>
    obtain ⟨rest, hrest, hfailures⟩ := ih
    refine ⟨new ++ rest, by rw [hrest, hnew, List.append_assoc], ?_⟩
    rwa [failureEvents_actless (acts_eq_nil hnew haside.acts)]
  | settled outcome _ ih => exact ih
  | @answered u v w e t own hfired he _ ih =>
    obtain ⟨rest, hrest, hfailures⟩ := ih
    obtain ⟨new, hnew, hacts⟩ := he.journal
    refine ⟨.act e.act :: (new ++ rest), ?_, ?_⟩
    · rw [hrest, hnew]
      simp [World.noted]
    · rcases e.failing_cases with ⟨item, cause, delivery, rfl⟩ | ⟨hnone, hact⟩
      · cases hfired
      · rwa [failureEvents_act hact hacts, List.filterMap_cons_none hnone]
  | @fired u v w e fired t own hfired he _ _ ih =>
    obtain ⟨rest, hrest, hfailures⟩ := ih
    -- the event is the first that is noted after the act
    have hrecorded := he.obeys_recorded Passes.pluginLaw hfired
    obtain ⟨new, hnew, hacts⟩ :=
      exists_actless hrecorded (he.obeys_recorded Actless.law hfired)
    have htells := Aside.toldOf v fired.delivery
    obtain ⟨told, htold, -⟩ := htells.journal
    have hquiet : World.acts (new ++ told) = [] := by
      rw [World.acts_append, hacts, acts_eq_nil htold htells.acts]
      rfl
    let event : Members := ("timestamp", .text u.clock.next.text) :: fired.members
    refine ⟨.act e.act :: .event event :: (new ++ told ++ rest), ?_, ?_⟩
    · rw [hrest, htold, hnew]
      simp [World.noted, World.recorded, event]
    · rcases e.failing_cases with ⟨item, cause, delivery, rfl⟩ | ⟨hnone, hact⟩
      · cases hfired
        show List.Forall₂ Stamped ((item.stage.name, _) :: t.filterMap Exchange.failing?)
          (Session.failureEvents (.act (.failed item.stage.name) :: _))
        rw [failureEvents_failed _ _ hquiet]
        exact .cons ⟨rfl, _, rfl⟩ hfailures
      · have hevent : World.acts (.event event :: (new ++ told)) = [] := hquiet
        rwa [← List.cons_append, failureEvents_act hact hevent, List.filterMap_cons_none hnone]

/-- Each failure of an item is recorded, in the order of the items. -/
theorem Lifecycle.recorded {items : List Item} {u v : World} {t : List Exchange}
    {own : List Record} (h : Lifecycle items t) (haccounted : Accounted setup runner u t own v) :
    ∃ new, v.journal = u.journal ++ new ∧
      List.Forall₂ Stamped (itemFailures t) (failureEvents new) ∧
      ((failureEvents new).map (·.2)).Sublist (World.events new) := by
  rw [← h.failing]
  obtain ⟨new, hnew, hfailures⟩ := haccounted.failureEvents
  exact ⟨new, hnew, hfailures, failureEvents_sublist new⟩

/-! ## The report -/

/-- The files stay as they are, and what a report would tell of. -/
structure Lasting (u v : World) : Prop where
  tree : v.tree = u.tree
  dryRun : v.dryRun = u.dryRun
  filters : v.filters = u.filters
  events : World.events v.journal = World.events u.journal

namespace Lasting

theorem trans {u v w : World} (h : Lasting u v) (h' : Lasting v w) : Lasting u w :=
  ⟨h'.tree.trans h.tree, h'.dryRun.trans h.dryRun, h'.filters.trans h.filters,
    h'.events.trans h.events⟩

/-- What is noted is no event. -/
theorem of_journal {u v : World} {new : List Entry} (hnew : v.journal = u.journal ++ new)
    (hevents : World.events new = []) (htree : v.tree = u.tree) (hdryRun : v.dryRun = u.dryRun)
    (hfilters : v.filters = u.filters) : Lasting u v := by
  refine ⟨htree, hdryRun, hfilters, ?_⟩
  unfold World.events at hevents ⊢
  rw [hnew, List.filterMap_append, hevents, List.append_nil]

theorem noted (w : World) {entry : Entry} (h : World.events [entry] = []) :
    Lasting w (w.noted entry) := .of_journal rfl h rfl rfl rfl

theorem law : Law fun u _ v => Lasting u v where
  refl _ := ⟨rfl, rfl, rfl, rfl⟩
  fail _ _ _ := ⟨rfl, rfl, rfl, rfl⟩
  trans := Lasting.trans
  recover h _ := h

theorem hookLaw : HookLaw fun u _ v => Lasting u v where
  toLaw := law
  logs _ _ _ _ _ := obeys_say law (fun w _ => noted w rfl) _ _ _ _ _
  named w _ := noted w rfl
  process w _ := noted w rfl

theorem of_aside {u v : World} (h : Aside u v) : Lasting u v := by
  obtain ⟨new, hnew, hrecords⟩ := h.journal
  have hrest := h.rest
  refine .of_journal hnew (List.filterMap_eq_nil_iff.mpr fun entry hentry => ?_) (by rw [hrest])
    (by rw [hrest]) (by rw [hrest])
  obtain ⟨record, rfl⟩ := hrecords entry hentry
  rfl

theorem cleanup (w : World) : Lasting w (exec cleanup w).2 := by
  obtain ⟨new, h⟩ := cleanup_cleans w
  have hrest := h.rest
  refine .of_journal h.journal (List.filterMap_eq_nil_iff.mpr fun entry hentry => ?_)
    (by rw [hrest]) (by rw [hrest]) (by rw [hrest])
  have hclosing := h.closing entry hentry
  cases entry with
  | event members => cases hclosing
  | _ => rfl

theorem sayElsewhere (logger : String) (level : Level) (message : String) (extra : Members)
    (traceback : Bool) (w : World) :
    Lasting w (exec (Session.sayElsewhere logger level message extra traceback) w).2 := by
  unfold Session.sayElsewhere
  split
  · exact noted w rfl
  · exact ⟨rfl, rfl, rfl, rfl⟩

theorem reportText {u v : World} (h : Lasting u v) (project : Project) :
    Session.reportText project v = Session.reportText project u := by
  unfold Session.reportText
  rw [h.dryRun, h.filters, h.events]

end Lasting

/-- A report that was written stands in its file, and tells the events up to then. -/
theorem content_of_report {u v : World} (h : exec (report setup) u = (.ok (), v)) :
    v.tree.content setup.settings.reportFile =
      .ok (.text (reportText setup.model.project v)) := by
  unfold report at h
  rw [exec_bind_ok (exec_get u)] at h
  -- neither the folders nor the file are there in the world before both are made
  obtain ⟨folders, _, hfolders, h⟩ := ok_of_exec_bind h
  rw [exec_lift] at hfolders
  obtain ⟨-, rfl⟩ := Prod.mk.inj hfolders
  rw [exec_bind_ok (exec_get u)] at h
  obtain ⟨tree, _, htree, h⟩ := ok_of_exec_bind h
  rw [exec_lift] at htree
  obtain ⟨hwritten, rfl⟩ := Prod.mk.inj htree
  rw [exec_bind_ok (exec_modify _ _)] at h
  -- only a record is added to the world in which the file was written
  have hlasting := Lasting.sayElsewhere contextLogger .debug "Report written"
    [("path", .text setup.settings.reportFile.text)] false { u with tree := tree }
  rw [h] at hlasting
  rw [hlasting.tree, hlasting.reportText, Tree.content_of_writeText hwritten]
  rfl

/-- The exchange comes after the report. -/
def Exchange.isLate : Exchange → Bool
  | closingHooks _ _ _ => true
  | cleanup => true
  | closeLog => true
  | _ => false

theorem Exchange.Happens.lasting {e : Exchange} {u v : World} (h : e.Happens setup runner u v)
    (hlate : e.isLate = true) : Lasting u v := by
  cases e with
  | closingHooks phase cause failure => exact h.2 ▸ Lasting.hookLaw.runHooks runner _ u
  | cleanup =>
    have hlasting := Lasting.cleanup u
    rwa [show exec Session.cleanup u = _ from h] at hlasting
  | closeLog =>
    cases h
    exact ⟨rfl, rfl, rfl, rfl⟩
  | _ => cases hlate

theorem Accounted.lasting {u v : World} {t : List Exchange} {own : List Record}
    (h : Accounted setup runner u t own v) (hlate : ∀ e ∈ t, e.isLate = true) : Lasting u v := by
  induction h with
  | nil w => exact ⟨rfl, rfl, rfl, rfl⟩
  | aside haside _ _ _ ih => exact (Lasting.of_aside haside).trans (ih hlate)
  | settled outcome _ ih => exact ⟨(ih hlate).tree, (ih hlate).dryRun, (ih hlate).filters,
      (ih hlate).events⟩
  | answered _ he _ ih =>
    rw [List.forall_mem_cons] at hlate
    exact ((Lasting.noted _ rfl).trans (he.lasting hlate.1)).trans (ih hlate.2)
  | @fired u v w e fired t own hfired _ _ _ _ =>
    have hlate := hlate e List.mem_cons_self
    cases e with
    | closingHooks => cases hfired
    | cleanup => cases hfired
    | closeLog => cases hfired
    | _ => cases hlate

/-- A report that was written is there in the end. -/
theorem Accounted.report {u v : World} {t rest : List Exchange} {own : List Record}
    (h : Accounted setup runner u t own v) (ht : t = .report none :: rest)
    (hlate : ∀ e ∈ rest, e.isLate = true) :
    v.tree.content setup.settings.reportFile =
      .ok (.text (reportText setup.model.project v)) := by
  induction h with
  | nil w => cases ht
  | aside _ _ _ _ ih => exact ih ht
  | settled outcome _ ih => exact ih ht
  | fired hfired =>
    cases ht
    cases hfired
  | @answered u v w _ t own _ he hrest _ =>
    cases ht
    have hlasting := hrest.lasting hlate
    rw [hlasting.tree, hlasting.reportText]
    exact content_of_report (exec_of_ends he)

/-! ## What is held back -/

/-- Of what is logged, only what lies below the level of the log is held back. -/
def Discloses (u : World) (_ : Option Failure) (v : World) : Prop :=
  v.level = u.level ∧ ∃ new, v.journal = u.journal ++ new ∧
    ∀ record, .record record .heldBack ∈ new → u.level.admits record.level = false

namespace Discloses

variable {u v w : World} {e e' e'' : Option Failure}

theorem silent (hlevel : v.level = u.level) (hjournal : v.journal = u.journal) :
    Discloses u e v :=
  ⟨hlevel, [], by rw [hjournal, List.append_nil], fun _ h => absurd h List.not_mem_nil⟩

theorem of_entry {entry : Entry} (h : ∀ record, entry ≠ .record record .heldBack)
    (hlevel : v.level = u.level) (hjournal : v.journal = u.journal ++ [entry]) :
    Discloses u e v :=
  ⟨hlevel, [entry], hjournal, fun record hmem =>
    absurd (List.mem_singleton.mp hmem).symm (h record)⟩

theorem noted {entry : Entry} (h : ∀ record, entry ≠ .record record .heldBack) (w : World) :
    Discloses w e (w.noted entry) :=
  of_entry h rfl rfl

/-- A record is held back where the log does not admit its level. -/
theorem said (record : Record) (w : World) :
    Discloses w e (w.noted (.record record (w.reach record.level))) := by
  refine ⟨rfl, [_], rfl, fun other hmem => ?_⟩
  obtain ⟨rfl, hreach⟩ := Entry.record.inj (List.mem_singleton.mp hmem)
  cases hadmits : w.level.admits other.level with
  | false => rfl
  | true =>
    unfold World.reach at hreach
    rw [if_pos hadmits] at hreach
    split at hreach <;> cases hreach

theorem trans (h : Discloses u e v) (h' : Discloses v e' w) : Discloses u e'' w := by
  obtain ⟨hlevel, new, hnew, hheld⟩ := h
  obtain ⟨hlevel', new', hnew', hheld'⟩ := h'
  refine ⟨hlevel'.trans hlevel, new ++ new', by rw [hnew', hnew, List.append_assoc], ?_⟩
  intro record hmem
  rcases List.mem_append.mp hmem with hmem | hmem
  · exact hheld record hmem
  · rw [← hlevel]
    exact hheld' record hmem

theorem toLaw : Law Discloses where
  refl _ := silent rfl rfl
  fail _ _ _ := silent rfl rfl
  trans := trans
  recover h _ := h

theorem closingLaw : ClosingLaw Discloses where
  toLaw := toLaw
  closed _ := silent rfl rfl
  called w _ _ := noted (by simp) w
  raised w _ := noted (by simp) w
  policy _ _ _ := silent rfl rfl
  warned level message extra traceback w := by
    unfold Session.sayElsewhere
    split
    · exact noted (by simp) w
    · exact silent rfl rfl

theorem law : PluginLaw Discloses where
  toLaw := toLaw
  step h := by
    cases h with
    | raise f => exact noted (by simp) _
    | record r => exact said r _
    | elsewhere r => exact noted (by simp) _
    | call c => exact noted (by simp) _
    | cleanup => exact closingLaw.cleanup _
    | _ => exact silent rfl rfl
  heard w _ _ := noted (by simp) w
  event _ _ := of_entry (by simp) rfl rfl
  process w _ := noted (by simp) w

theorem runnerLaw : RunnerLaw Discloses :=
  .ofPlugin law
    (fun h => by
      cases h with
      | mark act => exact noted (by simp) _
      | _ => exact silent rfl rfl)
    fun h => h

theorem execute (setup : Setup) (runner : HookRunner) (items : List Item) (w : World) :
    Discloses w none (exec (execute setup runner items) w).2 := by
  rw [exec_execute_world]
  have hclosed : Obeys Discloses (do mark .cleanup; Session.cleanup) :=
    .bind toLaw (noted (by simp)) fun _ => closingLaw.cleanup
  have hsealed (v : World) : Discloses v none v.sealed :=
    of_entry (fun _ h => Entry.noConfusion h) rfl rfl
  have hend : Discloses (exec (runSession setup runner items) w).2 none _ :=
    (hclosed _).trans (hsealed _)
  exact (runnerLaw.runSession setup runner items w).trans hend

end Discloses

/-! ## The run as a whole -/

end

end ReleaseRunner.Session
