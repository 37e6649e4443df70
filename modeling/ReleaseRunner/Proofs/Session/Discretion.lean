import ReleaseRunner.Proofs.Session.Closing
import ReleaseRunner.Proofs.Session.Hearing

/-!
# Discreet listeners

A listener is discreet if it tolerates its failures and does nothing but log and fail. While such
listeners are called, nothing happens but that the journal grows by entries that tell of no deed of
the run (`Whispers`). So a delivery to them always comes to its end and halts nothing
(`exec_deliver_discreet`), and they can always be closed (`exec_cleanup_discreet`).
-/

namespace ReleaseRunner.Session

open Config Log

/-! ## Deeds -/

/-- The entry tells of a deed of the run: an act of the runner, the invocation of an item, a
process, a recorded event, or something printed. What listeners note is none of these, and neither
is what they are told of, nor a record. -/
def Entry.isDeed : Entry → Bool
  | .call (.listener _ _ _) => false
  | .call (.close _ _) => false
  | .call (.fired _) => false
  | .raised _ => false
  | .record _ _ => false
  | _ => true

/-- The deeds among entries. -/
def World.deeds (entries : List Entry) : List Entry := entries.filter Entry.isDeed

theorem World.deeds_append (a b : List Entry) : deeds (a ++ b) = deeds a ++ deeds b :=
  List.filter_append _ _

/-! ## What discreet listeners do -/

/-- The action only logs, or fails with what is no abort. -/
def Action.isHarmless : Action → Bool
  | .log _ _ _ _ => true
  | .trace _ => true
  | .raise failure => !failure.isAbort
  | _ => false

/-- The listener does not fail under the key. -/
def Listener.Withstands (listener : Listener) (key : String) : Prop :=
  ∀ (fire : Event → Run Bool) (w : World),
    failure? (exec ((listener.actions key).forM (act fire)) w).1 = none

/-- The listener tolerates its failures, only logs or fails, and does not fail under the keys. -/
structure Listener.Discreet (keys : List String) (listener : Listener) : Prop where
  tolerant : listener.tolerant = true
  harmless : ∀ entry ∈ listener.script, ∀ action ∈ entry.2, action.isHarmless = true
  withstands : ∀ key ∈ keys, listener.Withstands key

/-- All registered listeners are discreet. -/
def Roster.Discreet (keys : List String) (r : Roster) : Prop :=
  ∀ listener ∈ r.registered, listener.Discreet keys

theorem Listener.Discreet.actions {keys : List String} {listener : Listener}
    (h : listener.Discreet keys) (key : String) :
    ∀ action ∈ listener.actions key, action.isHarmless = true :=
  Listener.forall_actions h.harmless key

/-! ## Whispering -/

/-- Nothing happens but that the journal grows, by no deed, and the failure is no abort. -/
structure Whispers (u : World) (e : Option Failure) (v : World) : Prop where
  rest : v = { u with journal := v.journal }
  deeds : World.deeds v.journal = World.deeds u.journal
  abort : ∀ f, e = some f → f.isAbort = false

namespace Whispers

theorem noted (w : World) {entry : Entry} (h : entry.isDeed = false) :
    Whispers w none (w.noted entry) := by
  refine ⟨rfl, ?_, by simp⟩
  unfold World.noted
  rw [World.deeds_append]
  unfold World.deeds
  rw [List.filter_cons_of_neg (by simp [h]), List.filter_nil, List.append_nil]

theorem roster {u v : World} {e : Option Failure} (h : Whispers u e v) : v.roster = u.roster := by
  rw [h.rest]

theorem law : Law Whispers where
  refl w := ⟨rfl, rfl, by simp⟩
  fail w f h := ⟨rfl, rfl, fun g hg => by cases hg; exact h⟩
  trans h h' := ⟨by rw [h'.rest, h.rest], h'.deeds.trans h.deeds, h'.abort⟩
  recover h _ := ⟨h.rest, h.deeds, by simp⟩

theorem raise {f : Failure} (h : f.isAbort = false) : Obeys Whispers (raise f : Run Unit) := by
  intro w
  have hnoted : Whispers w none (w.noted (.raised f)) := noted w rfl
  exact ⟨hnoted.rest, hnoted.deeds, fun g hg => by cases hg; exact h⟩

theorem say (level : Level) (message : String) (values : List Json) (extra : Members)
    (traceback : Bool) : Obeys Whispers (say level message values extra traceback) :=
  obeys_say law (fun w _ => noted w rfl) _ _ _ _ _

theorem sayElsewhere (logger : String) (level : Level) (message : String) (extra : Members)
    (traceback : Bool) (w : World) :
    ∃ v, exec (sayElsewhere logger level message extra traceback) w = (.ok (), v) ∧
      Whispers w none v := by
  unfold Session.sayElsewhere
  split
  · exact ⟨_, exec_note _ w, noted w rfl⟩
  · exact ⟨w, exec_pure _ w, law.refl w⟩

theorem act (fire : Event → Run Bool) {action : Action} (h : action.isHarmless = true) :
    Obeys Whispers (act fire action) := by
  cases action with
  | raise f => exact raise (by simpa [Action.isHarmless] using h)
  | log level message values extra => exact say _ _ _ _ _
  | trace f => exact say _ _ _ _ _
  | _ => cases h

/-- While it is closed, a listener finds nothing to log to, so it fails over that as well. -/
theorem closingAction {action : Action} (h : action.isHarmless = true) :
    Obeys Whispers (closingAction action) := by
  cases action with
  | raise f => exact raise (by simpa [Action.isHarmless] using h)
  | policy name tolerant => cases h
  | _ => exact .throw law rfl

end Whispers

section
variable {keys : List String} {listener : Listener}

/-- A call of a discreet listener comes to its end, or to a failure that is no abort, but not where
the listener withstands the event. -/
theorem Listener.Discreet.call (h : listener.Discreet keys) (fire : Event → Run Bool)
    (key : String) (id : Nat) (w : World) :
    (∃ v, exec (callListener fire key id listener) w = (.ok (), v) ∧ Whispers w none v) ∨
      ∃ f v, exec (callListener fire key id listener) w = (.error f, v) ∧ f.isAbort = false ∧
        Whispers w none v ∧ key ∉ keys := by
  have hnoted : Whispers w none (w.noted (.call (.listener id key listener.name))) :=
    .noted w rfl
  have hactions : Obeys Whispers ((listener.actions key).forM (act fire)) :=
    .forM Whispers.law fun action haction => .act fire (h.actions key action haction)
  have hcall := Whispers.law.trans hnoted (hactions _)
  have hexec : exec (callListener fire key id listener) w =
      exec ((listener.actions key).forM (act fire))
        (w.noted (.call (.listener id key listener.name))) := rfl
  rw [hexec]
  rcases hr : exec ((listener.actions key).forM (act fire)) _ with ⟨f | _, v⟩
  · rw [hr] at hcall
    have hf := hcall.abort f rfl
    refine .inr ⟨f, v, rfl, hf, Whispers.law.recover hcall hf, fun hkey => ?_⟩
    have hwithstands := h.withstands key hkey fire
      (w.noted (.call (.listener id key listener.name)))
    rw [hr] at hwithstands
    cases hwithstands
  · rw [hr] at hcall
    exact .inl ⟨v, rfl, hcall⟩

theorem Listener.Discreet.close (h : listener.Discreet keys) (id : Nat) :
    Obeys Whispers (do
      note (.call (.close id listener.name))
      (listener.actions "close").forM closingAction) :=
  .bind Whispers.law (fun w => .noted w rfl) fun _ =>
    .forM Whispers.law fun action haction => .closingAction (h.actions "close" action haction)

end

/-! ## Deliveries -/

/-- A listener that is called is registered, unless the listeners were closed. -/
theorem Roster.mem_registered_of_at? {r : Roster} (hopen : r.closed = false) {place id : Nat}
    {listener : Listener} (h : r.at? place = some (id, listener)) :
    listener ∈ r.registered ∧ place < r.order.length := by
  obtain ⟨other, hplace, hmade⟩ := Option.bind_eq_some_iff.mp h
  obtain ⟨found, hfound, heq⟩ := Option.map_eq_some_iff.mp hmade
  cases heq
  obtain ⟨hlength, rfl⟩ := List.getElem?_eq_some_iff.mp hplace
  unfold registered
  rw [hopen]
  exact ⟨List.mem_filterMap.mpr ⟨_, List.getElem_mem hlength, hfound⟩, hlength⟩

section
variable {keys : List String} {fire : Event → Run Bool} {key : String}

/-- Where there are calls enough for all discreet listeners, none of them halts the delivery, and
none fails over a key that they withstand. -/
theorem exec_deliverFrom_discreet : ∀ (calls place : Nat) (tolerated : List ListenerFailure)
    {w : World}, w.roster.Discreet keys → w.roster.closed = false →
    w.roster.order.length - place < calls →
    ∃ more v, exec (deliverFrom fire key calls place tolerated) w =
        (.ok ⟨none, tolerated ++ more⟩, v) ∧ Whispers w none v ∧ (key ∈ keys → more = []) := by
  intro calls
  induction calls with
  | zero => exact fun _ _ _ _ _ hcalls => absurd hcalls (Nat.not_lt_zero _)
  | succ calls ih =>
    intro place tolerated w hdiscreet hopen hcalls
    rcases hat : w.roster.at? place with _ | ⟨id, listener⟩
    · rw [exec_deliverFrom_done hat]
      exact ⟨[], w, by rw [List.append_nil], Whispers.law.refl w, fun _ => rfl⟩
    · obtain ⟨hmem, hplace⟩ := Roster.mem_registered_of_at? hopen hat
      have hlistener := hdiscreet listener hmem
      -- the listeners are the same after the call, and so are their policies
      have hrest : ∀ {u : World}, u.roster = w.roster → ∀ tolerated,
          ∃ more v, exec (deliverFrom fire key calls (place + 1) tolerated) u =
            (.ok ⟨none, tolerated ++ more⟩, v) ∧ Whispers u none v ∧ (key ∈ keys → more = []) := by
        intro u hroster tolerated
        refine ih (place + 1) tolerated (hroster ▸ hdiscreet) (hroster ▸ hopen) ?_
        rw [hroster]
        omega
      rcases hlistener.call fire key id w with
        ⟨u, hcall, hwhispers⟩ | ⟨cause, u, hcall, hcause, hwhispers, hkey⟩
      · rw [exec_deliverFrom_well hat hcall]
        obtain ⟨more, v, hv, hwhispers', hnone⟩ := hrest hwhispers.roster tolerated
        exact ⟨more, v, hv, Whispers.law.trans hwhispers hwhispers', hnone⟩
      · have hpolicy : u.roster.tolerates place = true := by
          unfold Roster.tolerates
          rw [hwhispers.roster, hat]
          exact hlistener.tolerant
        rw [exec_deliverFrom_failed hat hcall hcause, if_pos hpolicy]
        let failure : ListenerFailure := ⟨listener.name, true, cause⟩
        obtain ⟨more, v, hv, hwhispers', -⟩ := hrest hwhispers.roster (tolerated ++ [failure])
        refine ⟨failure :: more, v, ?_, Whispers.law.trans hwhispers hwhispers',
          fun h => absurd h hkey⟩
        rw [hv, List.append_assoc]
        rfl

/-- Discreet listeners halt no delivery: only a result that is forced does. -/
theorem exec_deliver_discreet {w : World} (h : w.roster.Discreet keys) :
    ∃ tolerated v, exec (deliver fire key) w =
        (.ok ⟨(w.forced.lookup key).map (⟨"forced", false, ·⟩), tolerated⟩, v) ∧
      Whispers w none v ∧ (key ∈ keys → tolerated = []) := by
  unfold deliver
  rw [exec_bind_ok (exec_get w)]
  cases w.forced.lookup key with
  | some cause => exact ⟨[], w, rfl, Whispers.law.refl w, fun _ => rfl⟩
  | none =>
    cases hclosed : w.roster.closed with
    | true => exact ⟨[], w, rfl, Whispers.law.refl w, fun _ => rfl⟩
    | false =>
      have hcalls : w.roster.order.length - 0 < w.roster.order.length + w.limits.calls + 1 := by
        omega
      exact exec_deliverFrom_discreet _ 0 [] h hclosed hcalls

end

/-! ## Closing -/

/-- A discreet listener is closed whether it fails or not. -/
theorem exec_closeLogged_discreet {keys : List String} {listener : Listener} {id : Nat} {w : World}
    (hlistener : w.roster.made[id]? = some listener) (h : listener.Discreet keys) :
    ∃ v, exec (closeLogged id) w = (.ok (), v) ∧ Whispers w none v := by
  obtain ⟨hid, rfl⟩ := List.getElem?_eq_some_iff.mp hlistener
  have hclose : Whispers w (failure? (exec (closeListener id) w).1)
      (exec (closeListener id) w).2 := by
    rw [exec_closeListener hid]
    exact h.close id w
  unfold closeLogged
  rcases hr : exec (closeListener id) w with ⟨f | _, u⟩
  · rw [hr] at hclose
    have hf := hclose.abort f rfl
    -- what is caught is told by a warning that comes after the closing
    obtain ⟨v, hsay, hwhispers⟩ := Whispers.sayElsewhere rosterLogger .warning
      "Listener failed to close" [("listener", .text ((u.roster.made[id]?.map (·.name)).getD ""))]
      true u
    refine ⟨v, ?_, Whispers.law.trans (Whispers.law.recover hclose hf) hwhispers⟩
    rw [exec_bind_ok (exec_attempt_caught hr hf)]
    exact hsay
  · rw [hr] at hclose
    exact ⟨u, by rw [exec_bind_ok (exec_attempt_ok hr)]; rfl, hclose⟩

/-- Discreet listeners are closed one after the other. -/
theorem exec_forM_closeLogged_discreet {keys : List String} {ids : List Nat} {w : World}
    (h : ∀ id ∈ ids, ∃ listener, w.roster.made[id]? = some listener ∧ listener.Discreet keys) :
    ∃ v, exec (ids.forM closeLogged) w = (.ok (), v) ∧ Whispers w none v := by
  induction ids generalizing w with
  | nil => exact ⟨w, rfl, Whispers.law.refl w⟩
  | cons id ids ih =>
    rw [List.forall_mem_cons] at h
    obtain ⟨⟨listener, hlistener, hdiscreet⟩, hids⟩ := h
    obtain ⟨u, hu, hwhispers⟩ := exec_closeLogged_discreet hlistener hdiscreet
    rw [← hwhispers.roster] at hids
    obtain ⟨v, hv, hwhispers'⟩ := ih hids
    refine ⟨v, ?_, Whispers.law.trans hwhispers hwhispers'⟩
    show exec (closeLogged id >>= fun _ => ids.forM closeLogged) w = _
    rw [exec_bind_ok hu, hv]

/-- Closing discreet listeners fails with nothing, not even an abort. -/
theorem exec_cleanup_discreet {keys : List String} {w : World} (h : w.roster.Discreet keys) :
    ∃ v, exec cleanup w = (.ok (), v) ∧ Whispers { w with roster := w.roster.close } none v := by
  cases hclosed : w.roster.closed with
  | true =>
    have hsame : w.roster.close = w.roster := by
      unfold Roster.close
      rw [← hclosed]
    rw [hsame]
    exact ⟨w, exec_cleanup_of_closed hclosed, Whispers.law.refl w⟩
  | false =>
    rw [exec_cleanup_of_open hclosed]
    have hregistered : ∀ id ∈ w.roster.order, ∃ listener, w.roster.made[id]? = some listener ∧
        listener.Discreet keys := by
      intro id hid
      have hmade := List.getElem?_eq_getElem (w.roster.order_lt id hid)
      refine ⟨_, hmade, h _ ?_⟩
      unfold Roster.registered
      rw [hclosed]
      exact List.mem_filterMap.mpr ⟨id, hid, hmade⟩
    exact exec_forM_closeLogged_discreet hregistered

end ReleaseRunner.Session
