import ReleaseRunner.Proofs.Session.Exchange

/-!
# How events are heard

A delivery calls one listener after the other. `Heard` goes along with the calls as they really
end, and collects the failures with the policy that the listener has then: one that is tolerated is
followed by the next call, any other one is the last. `Delivers` also knows of results that are
forced and of listeners that were closed. The main statement, `delivers_of_happens`, says that
the deliveries of the runner come about in this way, right after their events are recorded.
-/

namespace ReleaseRunner.Session

open Config Log

/-- The failures of a delivery: those that were tolerated, and then the one that ended it. -/
def Delivery.failures (d : Delivery) : List ListenerFailure :=
  d.tolerated ++ d.halted.toList

/-- The policy of the listener at a place in the order of registration. -/
def Roster.tolerates (r : Roster) (place : Nat) : Bool :=
  ((r.at? place).map (·.2.tolerant)).getD false

/-! ## The rounds of a delivery -/

section
variable {fire : Event → Run Bool} {key : String} {calls place : Nat}
  {tolerated : List ListenerFailure} {id : Nat} {listener : Listener} {cause : Failure}
  {u v : World}

theorem exec_deliverFrom_done (hat : u.roster.at? place = none) :
    exec (deliverFrom fire key (calls + 1) place tolerated) u = (.ok ⟨none, tolerated⟩, u) := by
  unfold deliverFrom
  rw [exec_bind_ok (exec_get u), hat]
  rfl

theorem exec_deliverFrom_well (hat : u.roster.at? place = some (id, listener))
    (hcall : exec (callListener fire key id listener) u = (.ok (), v)) :
    exec (deliverFrom fire key (calls + 1) place tolerated) u =
      exec (deliverFrom fire key calls (place + 1) tolerated) v := by
  rw [deliverFrom, exec_bind_ok (exec_get u), hat]
  exact exec_bind_ok (exec_attempt_ok hcall)

theorem exec_deliverFrom_aborted (hat : u.roster.at? place = some (id, listener))
    (hcall : exec (callListener fire key id listener) u = (.error cause, v))
    (hcause : cause.isAbort = true) :
    exec (deliverFrom fire key (calls + 1) place tolerated) u = (.error cause, v) := by
  rw [deliverFrom, exec_bind_ok (exec_get u), hat]
  exact exec_bind_error (exec_attempt_abort hcall hcause)

/-- The policy is read where the call has left off. -/
theorem exec_deliverFrom_failed (hat : u.roster.at? place = some (id, listener))
    (hcall : exec (callListener fire key id listener) u = (.error cause, v))
    (hcause : cause.isAbort = false) :
    exec (deliverFrom fire key (calls + 1) place tolerated) u =
      if v.roster.tolerates place then
        exec (deliverFrom fire key calls (place + 1)
          (tolerated ++ [⟨listener.name, true, cause⟩])) v
      else (.ok ⟨some ⟨listener.name, false, cause⟩, tolerated⟩, v) := by
  rw [deliverFrom, exec_bind_ok (exec_get u), hat]
  dsimp only
  rw [exec_bind_ok (exec_attempt_caught hcall hcause)]
  dsimp only
  rw [exec_bind_ok (exec_get v)]
  change exec (if v.roster.tolerates place = true then
      deliverFrom fire key calls (place + 1)
        (tolerated ++ [⟨listener.name, v.roster.tolerates place, cause⟩])
    else return ⟨some ⟨listener.name, v.roster.tolerates place, cause⟩, tolerated⟩) v = _
  cases v.roster.tolerates place <;> rfl

end

/-! ## The calls of a delivery -/

/-- From a place in the order of registration on, the listeners are called under a key, and these
are their failures. -/
inductive Heard (fire : Event → Run Bool) (key : String) :
    Nat → World → List ListenerFailure → World → Prop
  | done {place : Nat} {w : World} (h : w.roster.at? place = none) : Heard fire key place w [] w
  | well {place id : Nat} {listener : Listener} {u v w : World} {failures : List ListenerFailure}
      (h : u.roster.at? place = some (id, listener))
      (hcall : exec (callListener fire key id listener) u = (.ok (), v))
      (rest : Heard fire key (place + 1) v failures w) : Heard fire key place u failures w
  | tolerated {place id : Nat} {listener : Listener} {cause : Failure} {u v w : World}
      {failures : List ListenerFailure} (h : u.roster.at? place = some (id, listener))
      (hcall : exec (callListener fire key id listener) u = (.error cause, v))
      (hpolicy : v.roster.tolerates place = true)
      (rest : Heard fire key (place + 1) v failures w) :
      Heard fire key place u (⟨listener.name, true, cause⟩ :: failures) w
  | halted {place id : Nat} {listener : Listener} {cause : Failure} {u v : World}
      (h : u.roster.at? place = some (id, listener))
      (hcall : exec (callListener fire key id listener) u = (.error cause, v))
      (hpolicy : v.roster.tolerates place = false) :
      Heard fire key place u [⟨listener.name, false, cause⟩] v

/-- The failures of a delivery are sorted by their policy. -/
def Delivery.Sorted (d : Delivery) : Prop :=
  (∀ f ∈ d.tolerated, f.tolerant = true) ∧ ∀ f ∈ d.halted, f.tolerant = false

/-- What is delivered under a key: a result that is forced, nothing where the listeners were closed,
or else what the listeners make of it, from the first that was registered on. -/
inductive Delivers (fire : Event → Run Bool) (key : String) :
    World → Delivery → World → Prop
  | forced {w : World} {cause : Failure} (h : w.forced.lookup key = some cause) :
      Delivers fire key w ⟨some ⟨"forced", false, cause⟩, []⟩ w
  | closed {w : World} (h : w.forced.lookup key = none) (hclosed : w.roster.closed = true) :
      Delivers fire key w ⟨none, []⟩ w
  | heard {u v : World} {d : Delivery} (h : u.forced.lookup key = none)
      (hopen : u.roster.closed = false) (heard : Heard fire key 0 u d.failures v)
      (hsorted : d.Sorted) : Delivers fire key u d v

section
variable {fire : Event → Run Bool} {key : String}

theorem heard_of_deliverFrom : ∀ (calls place : Nat) (tolerated : List ListenerFailure)
    {u v : World} {d : Delivery}, (∀ f ∈ tolerated, f.tolerant = true) →
    exec (deliverFrom fire key calls place tolerated) u = (.ok d, v) →
    ∃ failures, Heard fire key place u failures v ∧ d.failures = tolerated ++ failures ∧
      d.Sorted := by
  intro calls
  induction calls with
  | zero =>
    intro place tolerated u v d _ h
    cases h
  | succ calls ih =>
    intro place tolerated u v d htolerated h
    rcases hat : u.roster.at? place with _ | ⟨id, listener⟩
    · rw [exec_deliverFrom_done hat] at h
      cases h
      exact ⟨[], .done hat, rfl, htolerated, by simp⟩
    · rcases hcall : exec (callListener fire key id listener) u with ⟨cause | _, u'⟩
      · cases hcause : cause.isAbort with
        | true =>
          rw [exec_deliverFrom_aborted hat hcall hcause] at h
          cases h
        | false =>
          rw [exec_deliverFrom_failed hat hcall hcause] at h
          cases hpolicy : u'.roster.tolerates place with
          | true =>
            rw [hpolicy, if_pos rfl] at h
            have hmore : ∀ f ∈ tolerated ++ [⟨listener.name, true, cause⟩], f.tolerant = true := by
              intro f hf
              rcases List.mem_append.mp hf with hf | hf
              · exact htolerated f hf
              · rw [List.mem_singleton.mp hf]
            obtain ⟨failures, hheard, hfailures, hsorted⟩ := ih _ _ hmore h
            refine ⟨_, .tolerated hat hcall hpolicy hheard, ?_, hsorted⟩
            rw [hfailures, List.append_assoc]
            rfl
          | false =>
            rw [hpolicy, if_neg Bool.false_ne_true] at h
            cases h
            exact ⟨_, .halted hat hcall hpolicy, rfl, htolerated, by simp⟩
      · rw [exec_deliverFrom_well hat hcall] at h
        obtain ⟨failures, hheard, hfailures, hsorted⟩ := ih _ _ htolerated h
        exact ⟨failures, .well hat hcall hheard, hfailures, hsorted⟩

/-- A delivery that no abort ends comes about by its calls. -/
theorem delivers_of_deliver {u v : World} {d : Delivery}
    (h : exec (deliver fire key) u = (.ok d, v)) : Delivers fire key u d v := by
  unfold deliver at h
  rw [exec_bind_ok (exec_get u)] at h
  cases hforced : u.forced.lookup key with
  | some cause =>
    rw [hforced] at h
    cases h
    exact .forced hforced
  | none =>
    rw [hforced] at h
    cases hclosed : u.roster.closed with
    | true =>
      simp only [hclosed, if_true] at h
      cases h
      exact .closed hforced hclosed
    | false =>
      simp only [hclosed, Bool.false_eq_true, if_false] at h
      obtain ⟨failures, hheard, hfailures, hsorted⟩ := heard_of_deliverFrom _ _ [] (by simp) h
      rw [List.nil_append] at hfailures
      exact .heard hforced hclosed (hfailures ▸ hheard) hsorted

end

/-! ## The events of the runner -/

/-- An event that the runner fires: what is recorded of it, the key under which it is delivered, and
what came of the delivery. -/
structure Fired where
  members : Members
  key : String
  delivery : Delivery

/-- An event with its delivery. -/
def Fired.ofEvent (event : Event) (delivery : Delivery) : Fired :=
  ⟨event.members, event.key, delivery⟩

/-- The event that is fired in an exchange, if it is one of those. -/
def Exchange.fired? : Exchange → Option Fired
  | sessionStart delivery =>
    some ⟨[("scope", .text sessionScope), ("phase", .text "start")], "session_start", delivery⟩
  | before item delivery => some (.ofEvent (.before item.stage.name) delivery)
  | failed item cause delivery => some (.ofEvent (.failed item.stage.name cause) delivery)
  | succeeded item delivery => some (.ofEvent (.success item.stage.name) delivery)
  | sessionEnd delivery =>
    some ⟨[("scope", .text sessionScope), ("phase", .text "end")], "session_end", delivery⟩
  | _ => none

/-- How the scripts of listeners fire events while an exchange takes place: within a step, they are
one level deeper than the event of the runner. -/
def Exchange.within (e : Exchange) (w : World) : Event → Run Bool :=
  match e with
  | sessionStart _ | sessionEnd _ => fun event => return (← fire event).ok
  | _ => fun event => return (← fireWithin (w.limits.nesting - 1) event).ok

/-- The world after an event was recorded with the time. -/
def World.recorded (w : World) (members : Members) : World :=
  World.noted { w with clock := w.clock.read.2 }
    (.event (("timestamp", .text w.clock.next.text) :: members))

theorem exec_recordEvent (members : Members) (w : World) :
    exec (recordEvent members) w = (.ok (), w.recorded members) := rfl

theorem exec_fire_ok {event : Event} {u v : World} {d : Delivery}
    (h : exec (fire event) u = (.ok d, v)) :
    exec (deliver (fun event => return (← fireWithin (u.limits.nesting - 1) event).ok) event.key)
      (u.recorded event.members) = (.ok d, v) := by
  unfold fire at h
  rw [exec_bind_ok (exec_get u)] at h
  cases hnesting : u.limits.nesting with
  | zero =>
    rw [hnesting] at h
    cases h
  | succ depth =>
    rw [hnesting] at h
    unfold fireWithin at h
    rwa [exec_bind_ok (exec_recordEvent _ _)] at h

section
variable {setup : Setup} {runner : HookRunner} {e : Exchange} {fired : Fired} {u v : World}

/-- The event of an exchange is recorded, and then delivered. -/
theorem exec_deliver_of_happens (h : e.Happens setup runner u v) (hfired : e.fired? = some fired) :
    exec (deliver (e.within u) fired.key) (u.recorded fired.members) = (.ok fired.delivery, v) := by
  cases e with
  | sessionStart delivery =>
    cases hfired
    exact h
  | sessionEnd delivery =>
    cases hfired
    exact h
  | before item delivery =>
    cases hfired
    exact exec_fire_ok h
  | failed item cause delivery =>
    cases hfired
    exact exec_fire_ok h
  | succeeded item delivery =>
    cases hfired
    exact exec_fire_ok h
  | _ => cases hfired

/-- The deliveries of the runner come about by the calls of the listeners. -/
theorem delivers_of_happens (h : e.Happens setup runner u v) (hfired : e.fired? = some fired) :
    Delivers (e.within u) fired.key (u.recorded fired.members) fired.delivery v :=
  delivers_of_deliver (exec_deliver_of_happens h hfired)

/-- What holds of all that the runner calls on holds of what comes after an event was recorded. -/
theorem Exchange.Happens.obeys_recorded {P : World → Option Failure → World → Prop}
    (law : PluginLaw P) (h : e.Happens setup runner u v) (hfired : e.fired? = some fired) :
    P (u.recorded fired.members) none v := by
  have hwithin : ∀ event, Obeys P (e.within u event) := by
    intro event
    unfold Exchange.within
    split
    · exact law.deliveryLaw.fired event
    · exact law.deliveryLaw.fired event
    · exact .bind law.toLaw (law.deliveryLaw.fireWithin _ event) fun _ => .pure law.toLaw _
  have hdeliver := law.deliveryLaw.deliver hwithin fired.key (u.recorded fired.members)
  rwa [exec_deliver_of_happens h hfired] at hdeliver

end

end ReleaseRunner.Session
