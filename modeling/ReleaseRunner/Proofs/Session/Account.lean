import ReleaseRunner.Proofs.Session.Hearing
import ReleaseRunner.Proofs.Session.Telling

/-!
# The account of a run

`Accounted` tells exchanges as `Chronicled` does, and also what becomes of the failures of
listeners. After each delivery of the runner they are logged at once and in order, each in two
records, and none of the other records that the runner makes by itself begins like those.
-/

namespace ReleaseRunner.Session

open Config Log

/-- The world after the failures of a delivery were logged, the records of which get as far as the
log lets them. -/
def World.toldOf (w : World) (d : Delivery) : World :=
  { w with
    journal := w.journal ++ (d.failures.flatMap (listenerRecords w.log)).map fun record =>
      .record record (w.reach record.level) }

/-- The exchanges take place one after the other. The failures of the listeners are logged right
after each delivery, and the records given are all others that the runner makes by itself. -/
inductive Accounted (setup : Setup) (runner : HookRunner) :
    World → List Exchange → List Record → World → Prop
  | nil (w : World) : Accounted setup runner w [] [] w
  | aside {u v w : World} {t : List Exchange} {new : List Entry} {own : List Record}
      (h : Aside u v) (hnew : v.journal = u.journal ++ new)
      (hsilent : ∀ record ∈ World.records new, tellsListener record = false)
      (rest : Accounted setup runner v t own w) :
      Accounted setup runner u t (World.records new ++ own) w
  | settled {u w : World} {t : List Exchange} {own : List Record} (outcome : Outcome)
      (rest : Accounted setup runner { u with outcome := some outcome } t own w) :
      Accounted setup runner u t own w
  | answered {u v w : World} {e : Exchange} {t : List Exchange} {own : List Record}
      (hfired : e.fired? = none) (h : e.Happens setup runner (u.noted (.act e.act)) v)
      (rest : Accounted setup runner v t own w) : Accounted setup runner u (e :: t) own w
  | fired {u v w : World} {e : Exchange} {fired : Fired} {t : List Exchange} {own : List Record}
      (hfired : e.fired? = some fired) (h : e.Happens setup runner (u.noted (.act e.act)) v)
      (hdelivers : Delivers (e.within u) fired.key
        ((u.noted (.act e.act)).recorded fired.members) fired.delivery v)
      (rest : Accounted setup runner (v.toldOf fired.delivery) t own w) :
      Accounted setup runner u (e :: t) own w

/-! ## The records about listeners -/

theorem exec_forM_logListenerFailure (failures : List ListenerFailure) (w : World) :
    exec (failures.forM logListenerFailure) w = (.ok (), { w with
      journal := w.journal ++ (failures.flatMap (listenerRecords w.log)).map fun record =>
        .record record (w.reach record.level) }) := by
  induction failures generalizing w with
  | nil =>
    rw [List.flatMap_nil, List.map_nil, List.append_nil]
    rfl
  | cons failure failures ih =>
    show exec (logListenerFailure failure >>= fun _ => failures.forM logListenerFailure) w = _
    rw [exec_bind_ok (exec_logListenerFailure failure w), ih, List.flatMap_cons, List.map_append,
      ← List.append_assoc]
    -- the entries that are added leave the log and its level alone
    rfl

/-- The failures of a delivery are logged, and the halting one is given. -/
theorem exec_haltOf (d : Delivery) (w : World) :
    exec (haltOf d) w = (.ok (d.halted.map (·.cause)), w.toldOf d) := by
  unfold haltOf
  rw [exec_bind_ok (exec_forM_logListenerFailure _ w)]
  rfl

theorem records_map_record (records : List Record) (reach : Record → Reach) :
    World.records (records.map fun record => .record record (reach record)) = records := by
  unfold World.records
  rw [List.filterMap_map]
  exact List.filterMap_some

theorem Aside.toldOf (w : World) (d : Delivery) : Aside w (w.toldOf d) := by
  refine ⟨rfl, _, rfl, fun entry hentry => ?_⟩
  obtain ⟨record, -, rfl⟩ := List.mem_map.mp hentry
  exact ⟨record, rfl⟩

/-- The records about listeners tell no outcome. -/
theorem filter_listenerRecords (log : SessionLog) (failures : List ListenerFailure) :
    (failures.flatMap (listenerRecords log)).filter tellsOutcome = [] := by
  refine List.filter_eq_nil_iff.mpr fun record hrecord => ?_
  obtain ⟨failure, -, hrecord⟩ := List.mem_flatMap.mp hrecord
  rw [untold_listenerRecords hrecord]
  exact Bool.false_ne_true

section
variable {setup : Setup} {runner : HookRunner}

theorem Accounted.of_aside {u v : World} {new : List Entry} (h : Aside u v)
    (hnew : v.journal = u.journal ++ new)
    (hsilent : ∀ record ∈ World.records new, tellsListener record = false) :
    Accounted setup runner u [] (World.records new) v := by
  have haccounted : Accounted setup runner u [] (World.records new ++ []) v :=
    .aside h hnew hsilent (.nil v)
  rwa [List.append_nil] at haccounted

theorem Accounted.trans {u v w : World} {t t' : List Exchange} {own own' : List Record}
    (h : Accounted setup runner u t own v) (h' : Accounted setup runner v t' own' w) :
    Accounted setup runner u (t ++ t') (own ++ own') w := by
  induction h with
  | nil => exact h'
  | aside haside hnew hsilent _ ih =>
    rw [List.append_assoc]
    exact .aside haside hnew hsilent (ih h')
  | settled outcome _ ih => exact .settled outcome (ih h')
  | answered hfired he _ ih => exact .answered hfired he (ih h')
  | fired hfired he hdelivers _ ih => exact .fired hfired he hdelivers (ih h')

/-- Exchanges that are accounted for take place, with records that tell the same of the outcome. -/
theorem Accounted.chronicled {u v : World} {t : List Exchange} {own : List Record}
    (h : Accounted setup runner u t own v) :
    ∃ own', Chronicled setup runner u t own' v ∧
      own'.filter tellsOutcome = own.filter tellsOutcome := by
  induction h with
  | nil w => exact ⟨[], .nil w, rfl⟩
  | aside haside hnew _ _ ih =>
    obtain ⟨own', hown', htells⟩ := ih
    exact ⟨_, .aside haside hnew hown', by
      rw [List.filter_append, List.filter_append, htells]⟩
  | settled outcome _ ih =>
    obtain ⟨own', hown', htells⟩ := ih
    exact ⟨own', .settled outcome hown', htells⟩
  | answered _ he _ ih =>
    obtain ⟨own', hown', htells⟩ := ih
    exact ⟨own', .exchange he hown', htells⟩
  | @fired u v w e fired t own _ he _ _ ih =>
    obtain ⟨own', hown', htells⟩ := ih
    refine ⟨_, .exchange he (.aside (.toldOf v fired.delivery) rfl hown'), ?_⟩
    rw [List.filter_append, records_map_record _ fun record => v.reach record.level,
      filter_listenerRecords, htells]
    rfl

end

end ReleaseRunner.Session
