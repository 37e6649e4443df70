import Mathlib.Data.List.Basic
import ReleaseRunner.Proofs.Session.Steps

/-!
# Closing the listeners

What the journal tells about aborts and about closed listeners, and what closing the listeners
comes to. The main statement is `cleanup_closes`: where the listeners are still open, they are
closed in the order of registration, all of them or those up to the one that aborts, and
nothing but their closing is noted.
-/

namespace ReleaseRunner.Session

open Config Files Log

/-! ## What the journal tells -/

namespace World

/-- The aborts among what was raised. -/
def aborts (entries : List Entry) : List Failure :=
  entries.filterMap fun
    | .raised failure => if failure.isAbort then some failure else none
    | _ => none

/-- The places of the listeners that were closed. -/
def closings (entries : List Entry) : List Nat :=
  entries.filterMap fun
    | .call (.close id _) => some id
    | _ => none

@[simp] theorem aborts_append (a b : List Entry) : aborts (a ++ b) = aborts a ++ aborts b :=
  List.filterMap_append

@[simp] theorem closings_append (a b : List Entry) :
    closings (a ++ b) = closings a ++ closings b :=
  List.filterMap_append

@[simp] theorem acts_append (a b : List Entry) : acts (a ++ b) = acts a ++ acts b :=
  List.filterMap_append

@[simp] theorem traced_append (a b : List Entry) : traced (a ++ b) = traced a ++ traced b :=
  List.filterMap_append

end World

/-- A world in which nothing was done but to register listeners. -/
def World.withListeners (listeners : List Listener) : World where
  clock := ⟨⟨0⟩, 0⟩
  tree := ⟨[], []⟩
  environment := []
  programs := .named fun _ => .timesOut
  extensions := []
  steps := []
  forced := []
  roster := listeners.foldl Roster.enlist .empty
  log := ⟨none, false, none⟩
  console := none
  dryRun := false
  filters := .none
  validated := false
  ended := false
  outcome := none
  journal := []

/-- What holds of all actions of a listener holds of those under a key. -/
theorem Listener.forall_actions {p : Action → Prop} {listener : Listener}
    (h : ∀ entry ∈ listener.script, ∀ action ∈ entry.2, p action) (key : String) :
    ∀ action ∈ listener.actions key, p action := by
  have hlookup : ∀ key actions, Json.lookup listener.script key = some actions →
      ∀ action ∈ actions, p action := by
    intro key actions hactions
    obtain ⟨entry, hentry, rfl⟩ := Option.map_eq_some_iff.mp hactions
    exact h entry (List.mem_reverse.mp (List.mem_of_find?_eq_some hentry))
  unfold Listener.actions
  split
  · next actions hactions => exact hlookup key actions hactions
  · cases hstar : Json.lookup listener.script "*" with
    | none => exact fun _ haction => (by cases haction)
    | some actions => exact hlookup "*" actions hstar

/-- The entry is about listeners being closed: a call that closes one, what it raised, or a
warning, which does not go to the trace file. -/
def Entry.isClosing : Entry → Bool
  | .call c => c.isClosing
  | .raised _ => true
  | .record _ reach => reach != .traced
  | _ => false

/-- A computation that ends with an abort noted it last and no other one before; any other
computation noted none. -/
def Disciplined (new : List Entry) (e : Option Failure) : Prop :=
  match e.filter Failure.isAbort with
  | some f => ∃ before, new = before ++ [.raised f] ∧ World.aborts before = []
  | none => World.aborts new = []

theorem disciplined_none {new : List Entry} : Disciplined new none ↔ World.aborts new = [] :=
  Iff.rfl

theorem disciplined_of_not_abort {new : List Entry} {f : Failure} (h : f.isAbort = false) :
    Disciplined new (some f) ↔ World.aborts new = [] := by
  unfold Disciplined
  rw [Option.filter_some, h]
  rfl

theorem disciplined_of_abort {new : List Entry} {f : Failure} (h : f.isAbort = true) :
    Disciplined new (some f) ↔
      ∃ before, new = before ++ [.raised f] ∧ World.aborts before = [] := by
  unfold Disciplined
  rw [Option.filter_some, h]
  rfl

theorem Disciplined.append {a b : List Entry} {e : Option Failure} (ha : Disciplined a none)
    (hb : Disciplined b e) : Disciplined (a ++ b) e := by
  rw [disciplined_none] at ha
  unfold Disciplined at hb ⊢
  split at hb
  · obtain ⟨before, rfl, hbefore⟩ := hb
    exact ⟨a ++ before, by simp, by simp [ha, hbefore]⟩
  · rw [World.aborts_append, ha, hb]
    rfl

theorem Disciplined.aborts {new : List Entry} {e : Option Failure} (h : Disciplined new e) :
    World.aborts new = (e.filter Failure.isAbort).toList := by
  unfold Disciplined at h
  split at h
  · next f hf =>
    obtain ⟨before, rfl, hbefore⟩ := h
    have habort : f.isAbort = true := (Option.filter_eq_some_iff.mp hf).2
    rw [hf, World.aborts_append, hbefore]
    simp [World.aborts, habort]
  · next hf =>
    rw [h, hf]
    rfl

/-- Nothing is noted after an abort. -/
theorem Disciplined.last {new before after : List Entry} {e : Option Failure} {f : Failure}
    (h : Disciplined new e) (hnew : new = before ++ .raised f :: after) (hf : f.isAbort = true) :
    after = [] := by
  have hmany : World.aborts new = World.aborts before ++ f :: World.aborts after := by
    rw [hnew, World.aborts_append]
    simp [World.aborts, hf]
  unfold Disciplined at h
  split at h
  · obtain ⟨first, hfirst, hnone⟩ := h
    rw [hfirst] at hnew
    -- the abort stands in front of the last one or is the last one itself
    rcases List.eq_nil_or_concat after with rfl | ⟨rest, entry, rfl⟩
    · rfl
    · rw [List.concat_eq_append, ← List.cons_append, ← List.append_assoc] at hnew
      have hsame := (List.append_inj' hnew rfl).1
      rw [hsame, World.aborts_append] at hnone
      simp [World.aborts, hf] at hnone
  · rw [h] at hmany
    simp at hmany

theorem disciplined_raised (f : Failure) : Disciplined [.raised f] (some f) := by
  cases h : f.isAbort
  · rw [disciplined_of_not_abort h]
    simp [World.aborts, h]
  · rw [disciplined_of_abort h]
    exact ⟨[], rfl, rfl⟩

/-! ## The law of closing -/

/-- Listeners are closed in the given order, all of them unless an abort ends it. Only the
policies of listeners change, and nothing but closing is noted. -/
structure Closes (ids : List Nat) (u : World) (e : Option Failure) (v : World) : Prop where
  rest : v = { u with roster := v.roster, journal := v.journal }
  order : v.roster.order = u.roster.order
  closed : v.roster.closed = u.roster.closed
  made : v.roster.made.length = u.roster.made.length
  journal : ∃ new, v.journal = u.journal ++ new ∧ (∀ entry ∈ new, entry.isClosing = true) ∧
    Disciplined new e ∧ World.closings new <+: ids ∧
    (e.filter Failure.isAbort = none → World.closings new = ids)

theorem Closes.refl (w : World) : Closes [] w none w :=
  ⟨rfl, rfl, rfl, rfl, [], by simp, by simp, rfl, by simp [World.closings],
    by simp [World.closings]⟩

theorem Closes.trans {ids ids' : List Nat} {u v w : World} {e : Option Failure}
    (h : Closes ids u none v) (h' : Closes ids' v e w) : Closes (ids ++ ids') u e w := by
  obtain ⟨new, hnew, hclosing, hdisc, -, hids⟩ := h.journal
  obtain ⟨new', hnew', hclosing', hdisc', hpre', hids'⟩ := h'.journal
  have hids := hids rfl
  refine ⟨?_, h'.order.trans h.order, h'.closed.trans h.closed, h'.made.trans h.made,
    new ++ new', ?_, ?_, hdisc.append hdisc', ?_, ?_⟩
  · rw [h'.rest, h.rest]
  · rw [hnew', hnew, List.append_assoc]
  · intro entry hentry
    rcases List.mem_append.mp hentry with hentry | hentry
    · exact hclosing entry hentry
    · exact hclosing' entry hentry
  · rw [World.closings_append, hids]
    exact (List.prefix_append_right_inj ids).mpr hpre'
  · intro he
    rw [World.closings_append, hids, hids' he]

/-- A failure that is caught leaves the listeners closed that were to be closed. -/
theorem Closes.recover {ids : List Nat} {u v : World} {f : Failure} (h : Closes ids u (some f) v)
    (hf : f.isAbort = false) : Closes ids u none v := by
  obtain ⟨new, hnew, hclosing, hdisc, hpre, hids⟩ := h.journal
  refine ⟨h.rest, h.order, h.closed, h.made, new, hnew, hclosing, ?_, hpre, fun _ => ?_⟩
  · exact (disciplined_of_not_abort hf).mp hdisc
  · exact hids (by rw [Option.filter_some, hf]; rfl)

/-- What a listener does while it is closed closes no further one. -/
theorem Closes.law : Law (Closes []) where
  refl := Closes.refl
  fail w f h := ⟨rfl, rfl, rfl, rfl, [], by simp, by simp,
    (disciplined_of_not_abort h).mpr rfl, by simp [World.closings], by simp [World.closings]⟩
  trans h h' := h.trans h'
  recover h hf := h.recover hf

private theorem closes_noted (w : World) (entry : Entry) {e : Option Failure}
    (hentry : entry.isClosing = true) (hdisc : Disciplined [entry] e) :
    Closes (World.closings [entry]) w e (w.noted entry) :=
  ⟨rfl, rfl, rfl, rfl, [entry], rfl, by simpa using hentry, hdisc, List.prefix_rfl, fun _ => rfl⟩

@[simp] theorem Roster.setPolicy_order (r : Roster) (name : String) (tolerant : Bool) :
    (r.setPolicy name tolerant).order = r.order := by
  unfold Roster.setPolicy
  split <;> rfl

@[simp] theorem Roster.setPolicy_closed (r : Roster) (name : String) (tolerant : Bool) :
    (r.setPolicy name tolerant).closed = r.closed := by
  unfold Roster.setPolicy
  split <;> rfl

@[simp] theorem Roster.length_setPolicy (r : Roster) (name : String) (tolerant : Bool) :
    (r.setPolicy name tolerant).made.length = r.made.length := by
  unfold Roster.setPolicy
  split
  · simp
  · rfl

@[simp] theorem Roster.enlist_closed (r : Roster) (listener : Listener) :
    (r.enlist listener).closed = r.closed := rfl

@[simp] theorem Roster.enrol_closed (r : Roster) (name : String) :
    (r.enrol name).closed = r.closed := rfl

private theorem closes_closingAction (action : Action) :
    Obeys (Closes []) (closingAction action) := by
  cases action with
  | raise failure =>
    exact fun w => closes_noted w (.raised failure) rfl (disciplined_raised failure)
  | policy name tolerant =>
    exact fun w => ⟨rfl, w.roster.setPolicy_order name tolerant,
      w.roster.setPolicy_closed name tolerant, w.roster.length_setPolicy name tolerant, [],
      (List.append_nil _).symm, by simp, rfl, List.prefix_rfl, fun _ => rfl⟩
  | _ => exact .throw Closes.law rfl

theorem closes_sayElsewhere (logger : String) (level : Level) (message : String)
    (extra : Members) (traceback : Bool) (w : World) :
    ∃ v, exec (sayElsewhere logger level message extra traceback) w = (.ok (), v) ∧
      Closes [] w none v := by
  unfold sayElsewhere
  split
  · next record _ =>
    exact ⟨_, exec_note _ w, closes_noted w (.record record .made) rfl rfl⟩
  · exact ⟨w, exec_pure _ w, Closes.refl w⟩

theorem closes_closingActions (actions : List Action) :
    Obeys (Closes []) (actions.forM closingAction) :=
  .forM Closes.law fun action _ => closes_closingAction action

theorem exec_closeListener {id : Nat} {w : World} (hid : id < w.roster.made.length) :
    exec (closeListener id) w = exec ((w.roster.made[id].actions "close").forM closingAction)
      (w.noted (.call (.close id w.roster.made[id].name))) := by
  unfold closeListener
  rw [exec_bind_ok (exec_get w), List.getElem?_eq_getElem hid]
  rfl

/-- A registered listener is closed once, and only an abort is passed on. -/
theorem closes_closeListener {id : Nat} {w : World} (hid : id < w.roster.made.length) :
    Closes [id] w (failure? (exec (closeListener id) w).1) (exec (closeListener id) w).2 := by
  have hnote : Closes [id] w none (w.noted (.call (.close id w.roster.made[id].name))) :=
    closes_noted w (.call (.close id w.roster.made[id].name)) rfl rfl
  rw [exec_closeListener hid]
  exact hnote.trans (closes_closingActions _ _)

/-- A registered listener is closed once even if it fails, and only an abort is passed on. -/
theorem closes_closeLogged {id : Nat} {w : World} (hid : id < w.roster.made.length) :
    (∃ v, exec (closeLogged id) w = (.ok (), v) ∧ Closes [id] w none v) ∨
      ∃ f v, exec (closeLogged id) w = (.error f, v) ∧ f.isAbort = true ∧
        Closes [id] w (some f) v := by
  have hclose := closes_closeListener hid
  unfold closeLogged
  rcases hr : exec (closeListener id) w with ⟨f | _, v⟩
  · rw [hr] at hclose
    -- what is caught is told by a warning that comes after the closing
    cases hf : f.isAbort
    · obtain ⟨u, hsay, hu⟩ := closes_sayElsewhere rosterLogger .warning "Listener failed to close"
        [("listener", .text ((v.roster.made[id]?.map (·.name)).getD ""))] true v
      refine .inl ⟨u, ?_, (hclose.recover hf).trans hu⟩
      rw [exec_bind_ok (exec_attempt_caught hr hf)]
      exact hsay
    · exact .inr ⟨f, v, exec_bind_error (exec_attempt_abort hr hf), hf, hclose⟩
  · rw [hr] at hclose
    exact .inl ⟨v, by rw [exec_bind_ok (exec_attempt_ok hr), exec_pure], hclose⟩

/-- An abort leaves the listeners after it open. -/
theorem Closes.cut {ids : List Nat} {u v : World} {f : Failure} (h : Closes ids u (some f) v)
    (hf : f.isAbort = true) (more : List Nat) : Closes (ids ++ more) u (some f) v := by
  obtain ⟨new, hnew, hclosing, hdisc, hpre, -⟩ := h.journal
  refine ⟨h.rest, h.order, h.closed, h.made, new, hnew, hclosing, hdisc,
    hpre.trans (List.prefix_append ids more), fun he => ?_⟩
  rw [Option.filter_some, hf] at he
  cases he

/-- Listeners are closed one after the other, up to the first that aborts. -/
theorem closes_forM : ∀ {ids : List Nat} {w : World}, (∀ id ∈ ids, id < w.roster.made.length) →
    (∃ v, exec (ids.forM closeLogged) w = (.ok (), v) ∧ Closes ids w none v) ∨
      ∃ f v, exec (ids.forM closeLogged) w = (.error f, v) ∧ f.isAbort = true ∧
        Closes ids w (some f) v := by
  intro ids
  induction ids with
  | nil => exact fun {w} _ => .inl ⟨w, rfl, Closes.refl w⟩
  | cons id ids ih =>
    intro w h
    show (∃ v, exec (closeLogged id >>= fun _ => ids.forM closeLogged) w = (.ok (), v) ∧ _) ∨
      ∃ f v, exec (closeLogged id >>= fun _ => ids.forM closeLogged) w = (.error f, v) ∧ _
    rcases closes_closeLogged (h id List.mem_cons_self) with
      ⟨v, hv, hfirst⟩ | ⟨f, v, hv, hf, hfirst⟩
    · rw [exec_bind_ok hv]
      -- closing one listener takes none away, so the others can be closed after it
      have hids : ∀ id' ∈ ids, id' < v.roster.made.length := fun id' hid' => by
        rw [hfirst.made]
        exact h id' (List.mem_cons_of_mem _ hid')
      rcases ih hids with ⟨u, hu, hrest⟩ | ⟨f, u, hu, hf, hrest⟩
      · exact .inl ⟨u, hu, hfirst.trans hrest⟩
      · exact .inr ⟨f, u, hu, hf, hfirst.trans hrest⟩
    · exact .inr ⟨f, v, exec_bind_error hv, hf, hfirst.cut hf ids⟩

/-! ## Closing all of them -/

/-- Listeners that were closed before are left alone. -/
theorem exec_cleanup_of_closed {w : World} (h : w.roster.closed = true) :
    exec cleanup w = (.ok (), w) := by
  unfold cleanup
  rw [exec_bind_ok (exec_get w)]
  simp only [h, if_true]
  rfl

/-- The listeners count as closed before the first of them is called. -/
theorem exec_cleanup_of_open {w : World} (h : w.roster.closed = false) :
    exec cleanup w =
      exec (w.roster.order.forM closeLogged) { w with roster := w.roster.close } := by
  unfold cleanup
  rw [exec_bind_ok (exec_get w)]
  simp only [h, Bool.false_eq_true, if_false]
  rfl

/-- The registered listeners are closed in the order of registration, and the only failure is
an abort of one of them. -/
theorem cleanup_closes {w : World} (h : w.roster.closed = false) :
    (∃ v, exec cleanup w = (.ok (), v) ∧
      Closes w.roster.order { w with roster := w.roster.close } none v) ∨
    ∃ f v, exec cleanup w = (.error f, v) ∧ f.isAbort = true ∧
      Closes w.roster.order { w with roster := w.roster.close } (some f) v := by
  rw [exec_cleanup_of_open h]
  exact closes_forM w.roster.order_lt

/-- What closing the listeners comes to, whether they were closed before or not. -/
structure Cleaned (u : World) (result : Except Failure Unit) (v : World) (new : List Entry) :
    Prop where
  rest : v = { u with roster := v.roster, journal := v.journal }
  journal : v.journal = u.journal ++ new
  closed : v.roster.closed = true
  order : v.roster.order = u.roster.order
  closing : ∀ entry ∈ new, entry.isClosing = true
  disciplined : Disciplined new (failure? result)
  abort : (failure? result).filter Failure.isAbort = failure? result
  closings : if u.roster.closed then World.closings new = []
    else World.closings new <+: u.roster.order ∧
      (World.aborts new = [] → World.closings new = u.roster.order)

private theorem Closes.cleaned {u v : World} {result : Except Failure Unit}
    (hopen : u.roster.closed = false)
    (h : Closes u.roster.order { u with roster := u.roster.close } (failure? result) v)
    (habort : (failure? result).filter Failure.isAbort = failure? result) :
    ∃ new, Cleaned u result v new := by
  obtain ⟨new, hnew, hclosing, hdisc, hpre, hall⟩ := h.journal
  refine ⟨new, h.rest, hnew, h.closed, h.order, hclosing, hdisc, habort, ?_⟩
  rw [hopen]
  refine ⟨hpre, fun hnone => hall ?_⟩
  have hlist := hdisc.aborts
  rw [hnone] at hlist
  exact Option.toList_eq_nil_iff.mp hlist.symm

theorem cleanup_cleans (w : World) :
    ∃ new, Cleaned w (exec cleanup w).1 (exec cleanup w).2 new := by
  cases h : w.roster.closed
  · rcases cleanup_closes h with ⟨v, hv, hcloses⟩ | ⟨f, v, hv, hf, hcloses⟩
    · rw [hv]
      exact Closes.cleaned h hcloses rfl
    · rw [hv]
      exact Closes.cleaned h hcloses (by rw [failure?_error, Option.filter_some, hf]; rfl)
  · rw [exec_cleanup_of_closed h]
    refine ⟨[], rfl, (List.append_nil _).symm, h, rfl, by simp, rfl, rfl, ?_⟩
    rw [h]
    rfl

/-! ## Other laws of closing -/

/-- A law that holds of the steps in which listeners are closed. -/
structure ClosingLaw (P : World → Option Failure → World → Prop) : Prop extends Law P where
  closed : ∀ w, P w none { w with roster := w.roster.close }
  called : ∀ w id name, P w none (w.noted (.call (.close id name)))
  raised : ∀ w f, P w (some f) (w.noted (.raised f))
  policy : ∀ w name tolerant, P w none { w with roster := w.roster.setPolicy name tolerant }
  warned : ∀ level message extra traceback,
    Obeys P (sayElsewhere rosterLogger level message extra traceback)

section
variable {P : World → Option Failure → World → Prop} (law : ClosingLaw P)
include law

theorem ClosingLaw.closingAction (action : Action) : Obeys P (Session.closingAction action) := by
  cases action with
  | raise failure => exact fun w => law.raised w failure
  | policy name tolerant => exact fun w => law.policy w name tolerant
  | _ => exact .throw law.toLaw rfl

theorem ClosingLaw.closeLogged (id : Nat) : Obeys P (Session.closeLogged id) := by
  have hclose : Obeys P (closeListener id) := by
    refine .get_bind fun w => ?_
    split
    · exact .bind law.toLaw (fun w => law.called w _ _) fun _ =>
        .forM law.toLaw fun action _ => law.closingAction action
    · exact .pure law.toLaw _
  refine .bind law.toLaw (.attempt law.toLaw hclose) fun result => ?_
  split
  · exact .pure law.toLaw _
  · exact .get_bind fun w => law.warned _ _ _ _

theorem ClosingLaw.cleanup : Obeys P Session.cleanup := by
  refine .get_bind fun w => ?_
  split
  · exact .pure law.toLaw _
  · exact .get_bind fun w => .bind law.toLaw (fun w => law.closed w) fun _ =>
      .forM law.toLaw fun id _ => law.closeLogged id

end

end ReleaseRunner.Session
