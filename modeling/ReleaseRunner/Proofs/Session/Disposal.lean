import ReleaseRunner.Proofs.Session.Envelope

/-!
# Which listeners are closed

Closing the listeners goes on after a listener that fails to close, but not after one that
aborts, and what was given up once is not taken up again. So of the registered listeners those
are closed that are due (`Roster.due`): all up to the first whose closing aborts. The main
statement says this of every way to use the listeners of a run (`useAll_disposed`), and that
nothing is closed, called or registered any more after that.

Whether the closing of a listener aborts can be told from its script alone, since there is no
session any more for the script to act on.
-/

namespace ReleaseRunner.Session

/-! ## Whose closing aborts -/

/-- The failure that a listener's actions end with when it is closed. -/
def closingFailure? : List Action → Option Failure
  | [] => none
  | .raise failure :: _ => some failure
  | .policy _ _ :: actions => closingFailure? actions
  | _ :: _ => some (.plain .missingAttribute "there is no context to act on")

theorem failure?_closingActions (actions : List Action) (w : World) :
    failure? (exec (actions.forM closingAction) w).1 = closingFailure? actions := by
  induction actions generalizing w with
  | nil => rfl
  | cons action actions ih =>
    show failure? (exec (closingAction action >>= fun _ => actions.forM closingAction) w).1 = _
    rw [exec_bind]
    cases action with
    | raise failure => rfl
    | policy name tolerant => exact ih _
    | _ => rfl

/-- The listener aborts when it is closed. -/
def Listener.abortsClosing (listener : Listener) : Bool :=
  (closingFailure? (listener.actions "close")).any Failure.isAbort

/-- The list up to the first element that stops it. -/
def upTo {α : Type} (stops : α → Bool) : List α → List α
  | [] => []
  | a :: l => a :: if stops a then [] else upTo stops l

section
variable {α : Type} {stops stops' : α → Bool} {l : List α}

theorem isPrefix_upTo (stops : α → Bool) (l : List α) : upTo stops l <+: l := by
  induction l with
  | nil => exact List.prefix_rfl
  | cons a l ih =>
    unfold upTo
    rw [List.prefix_cons_inj]
    split
    · exact List.nil_prefix
    · exact ih

theorem upTo_congr (h : ∀ a ∈ l, stops a = stops' a) : upTo stops l = upTo stops' l := by
  induction l with
  | nil => rfl
  | cons a l ih =>
    unfold upTo
    rw [h a List.mem_cons_self, ih fun b hb => h b (List.mem_cons_of_mem a hb)]

/-- Nothing is left out exactly if no element but the last one stops. -/
theorem upTo_eq_self : upTo stops l = l ↔ ∀ a ∈ l.dropLast, stops a = false := by
  induction l with
  | nil => simp [upTo]
  | cons a l ih =>
    unfold upTo
    cases l with
    | nil => simp [upTo]
    | cons b l =>
      rw [List.dropLast_cons_cons, List.forall_mem_cons, ← ih]
      cases stops a with
      | false => simp
      | true => simp

end

namespace Roster

/-- What the listeners do, whatever their policies are. -/
def scripts (r : Roster) : List Script := r.made.map (·.script)

/-- The listener at the place aborts when it is closed. -/
def abortsAt (r : Roster) (id : Nat) : Bool := r.made[id]?.any Listener.abortsClosing

/-- The listeners that are closed with the roster: those up to the first that aborts. -/
def due (r : Roster) : List Nat := upTo r.abortsAt r.order

private theorem abortsAt_of_scripts {r r' : Roster} (h : r.scripts <+: r'.scripts) {id : Nat}
    (hid : id < r.made.length) : r'.abortsAt id = r.abortsAt id := by
  have hlength : id < r.scripts.length := by
    unfold scripts
    rwa [List.length_map]
  have hsame : r'.scripts[id]? = r.scripts[id]? := by
    obtain ⟨more, hmore⟩ := h
    rw [← hmore, List.getElem?_append_left hlength]
  unfold scripts at hsame
  rw [List.getElem?_map, List.getElem?_map, List.getElem?_eq_getElem hid] at hsame
  obtain ⟨listener, hlistener, hscript⟩ := Option.map_eq_some_iff.mp hsame
  have hactions : listener.actions "close" = r.made[id].actions "close" := by
    unfold Listener.actions
    rw [hscript]
  unfold abortsAt
  rw [hlistener, List.getElem?_eq_getElem hid]
  unfold Listener.abortsClosing
  rw [Option.any_some, Option.any_some, hactions]

/-- Which listeners are due does not change any more while none is registered. -/
theorem due_of_scripts {r r' : Roster} (h : r.scripts <+: r'.scripts)
    (horder : r'.order = r.order) : r'.due = r.due := by
  unfold due
  rw [horder]
  exact upTo_congr fun id hid => abortsAt_of_scripts h (r.order_lt id hid)

/-- What listeners are apart from their policies does not change with a policy. -/
theorem map_setPolicy {β : Type} {g : Listener → β}
    (hg : ∀ listener tolerant, g { listener with tolerant := tolerant } = g listener) (r : Roster)
    (name : String) (tolerant : Bool) : (r.setPolicy name tolerant).made.map g = r.made.map g := by
  unfold setPolicy
  split
  · dsimp only
    refine List.ext_getElem? fun i => ?_
    rw [List.getElem?_map, List.getElem?_map, List.getElem?_modify, Option.map_eq_map,
      Option.map_map]
    congr 1
    funext listener
    dsimp only [Function.comp]
    split
    · exact hg listener tolerant
    · rfl
  · rfl

theorem scripts_setPolicy (r : Roster) (name : String) (tolerant : Bool) :
    (r.setPolicy name tolerant).scripts = r.scripts :=
  r.map_setPolicy (fun _ _ => rfl) name tolerant

end Roster

/-! ## Closing the listeners -/

/-- What is told of the listeners by a function stays the same. -/
def SameMade {β : Type} (g : Listener → β) (u : World) (_ : Option Failure) (v : World) : Prop :=
  v.roster.made.map g = u.roster.made.map g

section
variable {β : Type} {g : Listener → β}

variable (hg : ∀ listener tolerant, g { listener with tolerant := tolerant } = g listener)
include hg

theorem SameMade.law : ClosingLaw (SameMade g) where
  refl _ := rfl
  fail _ _ _ := rfl
  trans h h' := h'.trans h
  recover h _ := h
  closed _ := rfl
  called _ _ _ := rfl
  raised _ _ := rfl
  policy w name tolerant := w.roster.map_setPolicy hg name tolerant
  warned level message extra traceback w := by
    unfold sayElsewhere
    split <;> rfl

/-- Listeners that are closed stay what they are but for their policies. -/
theorem sameMade_cleanup : Obeys (SameMade g) cleanup :=
  (SameMade.law hg).cleanup

end

private theorem Closes.closings_eq_nil {u v : World} {e : Option Failure} (h : Closes [] u e v) :
    ∃ new, v.journal = u.journal ++ new ∧ World.closings new = [] := by
  obtain ⟨new, hnew, -, -, hpre, -⟩ := h.journal
  exact ⟨new, hnew, List.prefix_nil.mp hpre⟩

/-- A listener is closed once, and only its own abort is passed on. -/
private theorem closings_closeLogged {id : Nat} {w : World} (hid : id < w.roster.made.length) :
    ∃ new, (exec (closeLogged id) w).2.journal = w.journal ++ new ∧ World.closings new = [id] ∧
      if w.roster.abortsAt id then ∃ f, (exec (closeLogged id) w).1 = .error f
      else (exec (closeLogged id) w).1 = .ok () := by
  let actions := w.roster.made[id].actions "close"
  let called := w.noted (.call (.close id w.roster.made[id].name))
  have haborts : w.roster.abortsAt id = (closingFailure? actions).any Failure.isAbort := by
    unfold Roster.abortsAt
    rw [List.getElem?_eq_getElem hid]
    rfl
  have hresult := failure?_closingActions actions called
  obtain ⟨new, hnew, hnone⟩ := (closes_closingActions actions called).closings_eq_nil
  have hclosing : World.closings (.call (.close id w.roster.made[id].name) :: new) = [id] := by
    show id :: World.closings new = [id]
    rw [hnone]
  rw [← exec_closeListener hid] at hresult hnew
  unfold called World.noted at hnew
  rw [List.append_assoc, List.singleton_append] at hnew
  rw [haborts, ← hresult]
  rcases hr : exec (closeListener id) w with ⟨f | _, v⟩
  · rw [hr] at hnew
    rw [failure?_error, Option.any_some]
    cases hf : f.isAbort with
    | true =>
      have hexec : exec (closeLogged id) w = (.error f, v) :=
        exec_bind_error (exec_attempt_abort hr hf)
      rw [hexec]
      exact ⟨_, hnew, hclosing, f, rfl⟩
    | false =>
      -- the failure is only told by a warning
      obtain ⟨u, hsay, hu⟩ := closes_sayElsewhere rosterLogger .warning "Listener failed to close"
        [("listener", .text ((v.roster.made[id]?.map (·.name)).getD ""))] true v
      have hexec : exec (closeLogged id) w = (.ok (), u) := by
        unfold closeLogged
        rw [exec_bind_ok (exec_attempt_caught hr hf)]
        exact hsay
      obtain ⟨more, hmore, hnone'⟩ := hu.closings_eq_nil
      rw [hexec]
      refine ⟨(.call (.close id w.roster.made[id].name) :: new) ++ more, ?_, ?_, rfl⟩
      · rw [hmore, hnew, List.append_assoc]
      · rw [World.closings_append, hclosing, hnone', List.append_nil]
  · have hexec : exec (closeLogged id) w = (.ok (), v) :=
      exec_bind_ok (exec_attempt_ok hr)
    rw [hr] at hnew
    rw [hexec]
    exact ⟨_, hnew, hclosing, rfl⟩

/-- Listeners are closed one after the other, up to the first that aborts. -/
private theorem closings_forM {ids : List Nat} {w : World}
    (h : ∀ id ∈ ids, id < w.roster.made.length) :
    ∃ new, (exec (ids.forM closeLogged) w).2.journal = w.journal ++ new ∧
      World.closings new = upTo w.roster.abortsAt ids ∧
      ((∀ id ∈ ids, w.roster.abortsAt id = false) →
        (exec (ids.forM closeLogged) w).1 = .ok ()) := by
  induction ids generalizing w with
  | nil => exact ⟨[], (List.append_nil _).symm, rfl, fun _ => rfl⟩
  | cons id ids ih =>
    have hid := h id List.mem_cons_self
    obtain ⟨new, hnew, hclosing, hresult⟩ := closings_closeLogged hid
    show ∃ new, (exec (closeLogged id >>= fun _ => ids.forM closeLogged) w).2.journal = _ ∧ _ ∧
      (_ → (exec (closeLogged id >>= fun _ => ids.forM closeLogged) w).1 = .ok ())
    unfold upTo
    cases haborts : w.roster.abortsAt id with
    | true =>
      rw [haborts, if_pos rfl] at hresult
      obtain ⟨f, hf⟩ := hresult
      rw [exec_bind_error (Prod.ext hf rfl)]
      refine ⟨new, hnew, hclosing, fun hnone => ?_⟩
      rw [hnone id List.mem_cons_self] at haborts
      cases haborts
    | false =>
      rw [haborts, if_neg (by simp)] at hresult
      have hscripts : (exec (closeLogged id) w).2.roster.scripts = w.roster.scripts :=
        (SameMade.law fun _ _ => rfl).closeLogged id w
      have hlength : (exec (closeLogged id) w).2.roster.made.length = w.roster.made.length := by
        have := congrArg List.length hscripts
        unfold Roster.scripts at this
        rwa [List.length_map, List.length_map] at this
      -- what the listener does while it is closed changes nobody's script
      have hsame : ∀ id' ∈ ids, (exec (closeLogged id) w).2.roster.abortsAt id' =
          w.roster.abortsAt id' := by
        intro id' hid'
        refine Roster.abortsAt_of_scripts ?_ (h id' (List.mem_cons_of_mem id hid'))
        exact hscripts ▸ List.prefix_rfl
      obtain ⟨more, hmore, hrest, hreturns⟩ := ih fun id' hid' => by
        rw [hlength]
        exact h id' (List.mem_cons_of_mem id hid')
      rw [exec_bind_ok (Prod.ext hresult rfl)]
      refine ⟨new ++ more, by rw [hmore, hnew, List.append_assoc], ?_, fun hnone => ?_⟩
      · rw [World.closings_append, hclosing, hrest, upTo_congr hsame]
        rfl
      · exact hreturns fun id' hid' => by
          rw [hsame id' hid']
          exact hnone id' (List.mem_cons_of_mem id hid')

/-- The listeners that are due are closed, and nothing fails where none of them aborts. -/
theorem closings_cleanup {w : World} (h : w.roster.closed = false) :
    ∃ new, (exec cleanup w).2.journal = w.journal ++ new ∧ World.closings new = w.roster.due ∧
      ((∀ id ∈ w.roster.order, w.roster.abortsAt id = false) → (exec cleanup w).1 = .ok ()) := by
  have hexec : exec cleanup w =
      exec (w.roster.order.forM closeLogged) { w with roster := w.roster.close } :=
    exec_cleanup_of_open h
  rw [hexec]
  exact closings_forM (w := { w with roster := w.roster.close }) w.roster.order_lt

/-! ## The law of disposal -/

/-- What becomes of the listeners while the given entries are noted: further ones are registered
until they are closed, and then those are closed that are due. -/
def RosterDisposes (r : Roster) (new : List Entry) (r' : Roster) : Prop :=
  r.scripts <+: r'.scripts ∧
    if r.closed then r'.closed = true ∧ r'.order = r.order ∧ World.closings new = []
    else r.order <+: r'.order ∧ World.closings new = if r'.closed then r'.due else []

theorem RosterDisposes.refl (r : Roster) {new : List Entry} (h : World.closings new = []) :
    RosterDisposes r new r := by
  refine ⟨List.prefix_rfl, ?_⟩
  split
  · next hclosed => exact ⟨hclosed, rfl, h⟩
  · exact ⟨List.prefix_rfl, h⟩

theorem RosterDisposes.trans {r r' r'' : Roster} {new new' : List Entry}
    (h : RosterDisposes r new r') (h' : RosterDisposes r' new' r'') :
    RosterDisposes r (new ++ new') r'' := by
  obtain ⟨hscripts, h⟩ := h
  obtain ⟨hscripts', h'⟩ := h'
  refine ⟨hscripts.trans hscripts', ?_⟩
  rw [World.closings_append]
  cases hr : r.closed with
  | false =>
    rw [hr, if_neg Bool.false_ne_true] at h
    obtain ⟨horder, hclosings⟩ := h
    rw [if_neg Bool.false_ne_true]
    cases hr' : r'.closed with
    | false =>
      rw [hr', if_neg Bool.false_ne_true] at h' hclosings
      rw [hclosings, h'.2]
      exact ⟨horder.trans h'.1, List.nil_append _⟩
    | true =>
      -- closed by the first part: what was due then still is
      rw [hr', if_pos rfl] at h' hclosings
      obtain ⟨hclosed, hsame, hnone⟩ := h'
      rw [hclosings, hnone, hclosed, hsame, if_pos rfl, List.append_nil,
        Roster.due_of_scripts hscripts' hsame]
      exact ⟨horder, rfl⟩
  | true =>
    rw [hr, if_pos rfl] at h
    obtain ⟨hclosed, hsame, hnone⟩ := h
    rw [hclosed, if_pos rfl] at h'
    obtain ⟨hclosed', hsame', hnone'⟩ := h'
    rw [if_pos rfl, hnone, hnone']
    exact ⟨hclosed', hsame'.trans hsame, rfl⟩

/-- The law of all that is done with listeners. -/
def Disposes (u : World) (_ : Option Failure) (v : World) : Prop :=
  ∃ new, v.journal = u.journal ++ new ∧ RosterDisposes u.roster new v.roster

section
variable {u v w : World} {e : Option Failure}

private theorem disposes_roster (hjournal : v.journal = u.journal)
    (h : RosterDisposes u.roster [] v.roster) : Disposes u e v :=
  ⟨[], by rw [hjournal, List.append_nil], h⟩

private theorem disposes_silent (hjournal : v.journal = u.journal) (hroster : v.roster = u.roster) :
    Disposes u e v :=
  disposes_roster hjournal (by rw [hroster]; exact .refl _ rfl)

private theorem disposes_noted (entry : Entry) (hjournal : v.journal = u.journal ++ [entry])
    (hroster : v.roster = u.roster) (hclosing : World.closings [entry] = []) : Disposes u e v :=
  ⟨[entry], hjournal, by rw [hroster]; exact .refl _ hclosing⟩

theorem Disposes.trans {e' : Option Failure} (h : Disposes u e v) (h' : Disposes v e' w) :
    Disposes u e' w := by
  obtain ⟨new, hnew, hroster⟩ := h
  obtain ⟨new', hnew', hroster'⟩ := h'
  exact ⟨new ++ new', by rw [hnew', hnew, List.append_assoc], hroster.trans hroster'⟩

/-- The registered listeners stay registered. -/
theorem Disposes.order (h : Disposes u e v) : u.roster.order <+: v.roster.order := by
  obtain ⟨new, -, -, h⟩ := h
  split at h
  · exact h.2.1 ▸ List.prefix_rfl
  · exact h.1

/-- The listeners that were made stay what they are, whatever becomes of their policies. -/
theorem Disposes.scripts (h : Disposes u e v) : u.roster.scripts <+: v.roster.scripts := by
  obtain ⟨new, -, hscripts, -⟩ := h
  exact hscripts

private theorem disposes_cleanup (w : World) : Disposes w e (exec cleanup w).2 := by
  cases h : w.roster.closed with
  | true =>
    rw [exec_cleanup_of_closed h]
    exact disposes_silent rfl rfl
  | false =>
    obtain ⟨new, hnew, hclosing, -⟩ := closings_cleanup h
    obtain ⟨_, hcleaned⟩ := cleanup_cleans w
    have hscripts : (exec cleanup w).2.roster.scripts = w.roster.scripts :=
      sameMade_cleanup (fun _ _ => rfl) w
    have hprefix : w.roster.scripts <+: (exec cleanup w).2.roster.scripts :=
      hscripts ▸ List.prefix_rfl
    refine ⟨new, hnew, hprefix, ?_⟩
    rw [h, if_neg Bool.false_ne_true, hcleaned.closed, if_pos rfl, hcleaned.order, hclosing,
      Roster.due_of_scripts hprefix hcleaned.order]
    exact ⟨List.prefix_rfl, rfl⟩

private theorem scripts_append (r : Roster) (listener : Listener) :
    r.scripts <+: (r.made ++ [listener]).map (·.script) := by
  unfold Roster.scripts
  rw [List.map_append]
  exact List.prefix_append _ _

private theorem disposes_step (h : Step u e v) : Disposes u e v := by
  cases h with
  | raise f => exact disposes_noted (.raised f) rfl rfl rfl
  | record r => exact disposes_noted (.record r _) rfl rfl rfl
  | elsewhere r => exact disposes_noted (.record r _) rfl rfl rfl
  | call c hclosing =>
    refine disposes_noted (.call c) rfl rfl ?_
    cases c with
    | close id name => cases hclosing
    | _ => rfl
  | make listener hclosed =>
    refine disposes_roster rfl ⟨scripts_append _ listener, ?_⟩
    rw [if_pos hclosed]
    exact ⟨hclosed, rfl, rfl⟩
  | enlist listener hopen =>
    refine disposes_roster rfl ⟨scripts_append _ listener, ?_⟩
    rw [Roster.enlist_closed, hopen, if_neg Bool.false_ne_true]
    exact ⟨List.prefix_append _ _, rfl⟩
  | enrol name hopen =>
    refine disposes_roster rfl ⟨List.prefix_rfl, ?_⟩
    rw [Roster.enrol_closed, hopen, if_neg Bool.false_ne_true]
    exact ⟨List.prefix_append _ _, rfl⟩
  | policy name tolerant =>
    refine disposes_roster rfl ⟨Roster.scripts_setPolicy _ _ _ ▸ List.prefix_rfl, ?_⟩
    rw [Roster.setPolicy_order, Roster.setPolicy_closed]
    split
    · next hclosed => exact ⟨hclosed, rfl, rfl⟩
    · next hopen => exact ⟨List.prefix_rfl, rfl⟩
  | cleanup => exact disposes_cleanup _
  | _ => exact disposes_silent rfl rfl

theorem Disposes.law : PluginLaw Disposes where
  refl _ := disposes_silent rfl rfl
  fail _ _ _ := disposes_silent rfl rfl
  trans := Disposes.trans
  recover h _ := h
  step := disposes_step
  heard w c h := by
    refine disposes_noted (.call c) rfl rfl ?_
    cases c with
    | close id name => cases h
    | _ => rfl
  event w members := disposes_noted (.event members) rfl rfl rfl
  process w start := disposes_noted (.process start) rfl rfl rfl

end

/-! ## Using the listeners -/

/-- A way to use the listeners: to register a further one, or one of them once more, to call them
with an event, to close them, or to do something within a block that closes them when it is left,
however it is left. -/
inductive Use where
  | register (listener : Listener)
  | enrol (name : String)
  | dispatch (key : String)
  | cleanup
  | block (actions : List Action)

/-- What is done to use the listeners. -/
def Use.run : Use → Run Unit
  | .register listener => enlist listener
  | .enrol name => Session.enrol name
  | .dispatch key => discard (deliver (fun event => return (← fire event).ok) key)
  | .cleanup => Session.cleanup
  | .block actions => ensuring (perform actions) Session.cleanup

/-- The use closes the listeners. -/
def Use.closes : Use → Bool
  | .cleanup => true
  | .block _ => true
  | _ => false

/-- The world after the listeners were used, one time after the other, whatever came of each. -/
def useAll (uses : List Use) (w : World) : World :=
  uses.foldl (fun w use => (exec use.run w).2) w

private theorem exec_block (actions : List Action) (w : World) :
    (exec (Use.block actions).run w).2 = (exec cleanup (exec (perform actions) w).2).2 := by
  show (exec (ensuring (perform actions) cleanup) w).2 = _
  rw [exec_ensuring]
  split
  · next h => rw [h]
  · next h => rw [h]

private theorem disposes_use (use : Use) (w : World) :
    Disposes w none (exec use.run w).2 := by
  have law := Disposes.law
  cases use with
  | register listener => exact law.enlist listener w
  | enrol name => exact law.enrol name w
  | dispatch key =>
    have hdispatch : Obeys Disposes (Use.dispatch key).run :=
      .bind law.toLaw (law.deliveryLaw.deliver law.deliveryLaw.fired key) fun _ => .pure law.toLaw _
    exact hdispatch w
  | cleanup => exact disposes_cleanup w
  | block actions =>
    rw [exec_block]
    exact (law.perform actions w).trans (disposes_cleanup _)

theorem useAll_disposes (uses : List Use) (w : World) : Disposes w none (useAll uses w) := by
  induction uses generalizing w with
  | nil => exact disposes_silent rfl rfl
  | cons use uses ih => exact (disposes_use use w).trans (ih _)

private theorem closed_of_disposes {u v : World} {e : Option Failure} (h : Disposes u e v)
    (hclosed : u.roster.closed = true) :
    v.roster.closed = true ∧ v.roster.order = u.roster.order ∧
      ∃ new, v.journal = u.journal ++ new ∧ World.closings new = [] := by
  obtain ⟨new, hnew, -, h⟩ := h
  rw [if_pos hclosed] at h
  exact ⟨h.1, h.2.1, new, hnew, h.2.2⟩

/-- The listeners are closed for good by a use that closes them. -/
private theorem closed_useAll {uses : List Use} (h : uses.any Use.closes = true) (w : World) :
    (useAll uses w).roster.closed = true := by
  induction uses generalizing w with
  | nil => cases h
  | cons use uses ih =>
    rw [List.any_cons, Bool.or_eq_true] at h
    rcases h with h | h
    · have hclosed : (exec use.run w).2.roster.closed = true := by
        cases use with
        | cleanup =>
          obtain ⟨_, hcleaned⟩ := cleanup_cleans w
          exact hcleaned.closed
        | block actions =>
          obtain ⟨_, hcleaned⟩ := cleanup_cleans (exec (perform actions) w).2
          rw [exec_block]
          exact hcleaned.closed
        | _ => cases h
      exact (closed_of_disposes (useAll_disposes uses _) hclosed).1
    · exact ih h _

/-- Nothing is left to be done with the listeners. -/
structure Retired (w : World) : Prop where
  /-- None is registered. -/
  empty : w.roster.registered = []
  /-- Closing them does nothing at all. -/
  idle : exec cleanup w = (.ok (), w)
  /-- A further one is refused and leaves the registered ones as they were. -/
  refused : ∀ listener, ∃ v, exec (enlist listener) w = (.error registerRefusal, v) ∧
    v.roster.order = w.roster.order ∧ v.roster.closed = true ∧ v.journal = w.journal
  /-- One that was made before is refused as well. -/
  again : ∀ name, exec (enrol name) w = (.error registerRefusal, w)
  /-- However they are used from then on, none is closed and none is registered. -/
  later : ∀ uses, (useAll uses w).roster.closed = true ∧
    (useAll uses w).roster.order = w.roster.order ∧
    ∃ new, (useAll uses w).journal = w.journal ++ new ∧ World.closings new = []

private theorem retired_of_closed {w : World} (h : w.roster.closed = true) : Retired w where
  empty := by
    unfold Roster.registered
    rw [if_pos h]
  idle := exec_cleanup_of_closed h
  refused listener := ⟨_, exec_enlist_of_closed listener h, rfl, h, rfl⟩
  again name := exec_enrol_of_closed name h
  later uses := closed_of_disposes (useAll_disposes uses w) h

/-- What becomes of the listeners when they are used, one time after the other. -/
structure Disposed (uses : List Use) (w v : World) (new : List Entry) : Prop where
  journal : v.journal = w.journal ++ new
  /-- A use that closes the listeners closes them for good. -/
  ended : uses.any Use.closes = true → v.roster.closed = true
  /-- None is closed before that, and none more often than it is registered. -/
  waits : v.roster.closed = false → World.closings new = []
  once : ∀ id, (World.closings new).count id ≤ v.roster.order.count id
  /-- They are closed in the order of registration, up to the first whose closing aborts. -/
  closings : w.roster.closed = false → v.roster.closed = true →
    World.closings new = v.roster.due
  /-- So all are closed exactly if none but the last one aborts. -/
  all : w.roster.closed = false → v.roster.closed = true →
    (World.closings new = v.roster.order ↔
      ∀ id ∈ v.roster.order.dropLast, v.roster.abortsAt id = false)
  /-- Those that are left are never closed. -/
  retired : v.roster.closed = true → Retired v

/-- However the listeners are used, those that are due are closed, once for each registration and in
the order of registration, and after that nothing is left to be done with any of them. -/
theorem useAll_disposed (uses : List Use) (w : World) :
    ∃ new, Disposed uses w (useAll uses w) new := by
  obtain ⟨new, hnew, -, hroster⟩ := useAll_disposes uses w
  have hclosings : w.roster.closed = false → World.closings new =
      if (useAll uses w).roster.closed then (useAll uses w).roster.due else [] := by
    intro hopen
    rw [if_neg (by simp [hopen])] at hroster
    exact hroster.2
  have hnever : w.roster.closed = true → World.closings new = [] := by
    intro hclosed
    rw [if_pos hclosed] at hroster
    exact hroster.2.2
  have hdue : w.roster.closed = false → (useAll uses w).roster.closed = true →
      World.closings new = (useAll uses w).roster.due := by
    intro hopen hclosed
    rw [hclosings hopen, if_pos hclosed]
  refine ⟨new, { journal := hnew, ended := fun h => closed_useAll h w, waits := ?_, once := ?_,
                 closings := hdue, all := ?_, retired := retired_of_closed }⟩
  · intro hopen
    cases hw : w.roster.closed with
    | true => exact hnever hw
    | false => rw [hclosings hw, if_neg (by simp [hopen])]
  · intro id
    refine List.Sublist.count_le id ?_
    cases hw : w.roster.closed with
    | true =>
      rw [hnever hw]
      exact List.nil_sublist _
    | false =>
      rw [hclosings hw]
      split
      · exact (isPrefix_upTo _ _).sublist
      · exact List.nil_sublist _
  · intro hopen hclosed
    rw [hdue hopen hclosed]
    exact upTo_eq_self

/-- Of two listeners the first aborts when it is closed. The second is never closed, although
the listeners are closed twice. -/
theorem useAll_aborted :
    ∃ w : World, w.roster.closed = false ∧
      w.roster.registered.map (·.name) = ["First", "Second"] ∧
      World.calls (useAll [.cleanup, .cleanup] w).journal = ["close@First"] ∧
      (useAll [.cleanup, .cleanup] w).roster.registered.map (·.name) = [] := by
  let first : Listener := ⟨"First", false, [], [("close", [.raise (.plain .abort "stop")])]⟩
  let second : Listener := ⟨"Second", false, [], []⟩
  exact ⟨.withListeners [first, second], by decide +kernel⟩

end ReleaseRunner.Session
