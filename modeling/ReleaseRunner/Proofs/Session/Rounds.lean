import ReleaseRunner.Proofs.Session.Disposal
import ReleaseRunner.Proofs.Session.Following
import ReleaseRunner.Proofs.Session.Hearing

/-!
# The rounds of a delivery

A delivery calls one registered listener in each round, and while it goes on, scripts may register
further listeners, change policies and fire events of their own. The main statement is
`deliver_rounds`: as long as no callback aborts and the listeners are not closed, the delivery
returns; the listeners that it calls are a first part of those that are registered when it returns,
all of them unless the last one called failed without being tolerated; and its result tells the
failures, each with the policy that the listener has after its callback.

Which listeners the delivery calls itself is read off the journal (`World.directCalls`): the calls
for events that scripts fire stand between the event and the answer to it.
-/

namespace ReleaseRunner.Session

/-- How scripts fire events while one is delivered: at the start and the end of a session, and one
level deeper than an event that is fired within so many levels. -/
def firing : Option Nat → Event → Run Bool
  | none, event => do return (← fire event).ok
  | some depth, event => do return (← fireWithin depth event).ok

variable {fire : Event → Run Bool} {key : String} {u v w : World}

/-! ## Rounds -/

/-- A round of a delivery: the place of the listener among those that were made, its name, what its
callback failed with, and the policy that it has after the callback. -/
structure Round where
  id : Nat
  name : String
  failure : Option Failure
  tolerant : Bool

namespace Round

/-- The callback failed, and its listener does not tolerate that. -/
def Halts (r : Round) : Prop := r.failure ≠ none ∧ r.tolerant = false

/-- The failure that ends the delivery. -/
def halted? (r : Round) : Option ListenerFailure :=
  if r.tolerant then none else r.failure.map fun cause => ⟨r.name, false, cause⟩

/-- The failure that is tolerated. -/
def tolerated? (r : Round) : Option ListenerFailure :=
  if r.tolerant then r.failure.map fun cause => ⟨r.name, true, cause⟩ else none

theorem halted?_eq_none {r : Round} : r.halted? = none ↔ ¬r.Halts := by
  unfold halted? Halts
  cases r.tolerant <;> simp

end Round

/-- The listeners are called under a key, from a place in the order of registration on, and none
of them aborts. Which one has its turn is only looked up when the one before it has returned. -/
inductive Rounds (fire : Event → Run Bool) (key : String) :
    Nat → World → List Round → World → Prop
  | none (place : Nat) (w : World) : Rounds fire key place w [] w
  | next {place id : Nat} {listener : Listener} {u v w : World} {result : Except Failure Unit}
      {rounds : List Round} (hat : u.roster.at? place = some (id, listener))
      (hcall : exec (callListener fire key id listener) u = (result, v))
      (hcaught : (failure? result).filter Failure.isAbort = Option.none)
      (rest : Rounds fire key (place + 1) v rounds w) :
      Rounds fire key place u
        (⟨id, listener.name, failure? result, v.roster.tolerates place⟩ :: rounds) w

/-- What a delivery gives after its rounds, if there is a place from which on they were called and
some failures were tolerated before. -/
structure Settles (place : Nat) (tolerated : List ListenerFailure) (rounds : List Round)
    (d : Delivery) (v : World) : Prop where
  last : ∀ before r after, rounds = before ++ r :: after → r.Halts → after = []
  whole : (∀ r ∈ rounds, ¬r.Halts) → v.roster.at? (place + rounds.length) = none
  halted : d.halted = rounds.findSome? Round.halted?
  tolerated : d.tolerated = tolerated ++ rounds.filterMap Round.tolerated?

/-- A round that does not halt is followed by the others. -/
theorem Settles.cons {place : Nat} {tolerated : List ListenerFailure} {rounds : List Round}
    {d : Delivery} {r : Round} (hr : ¬r.Halts)
    (h : Settles (place + 1) (tolerated ++ r.tolerated?.toList) rounds d v) :
    Settles place tolerated (r :: rounds) d v where
  last before r' after hparts hhalts := by
    rcases List.cons_eq_append_iff.mp hparts with ⟨rfl, hfirst⟩ | ⟨before', rfl, hrest⟩
    · cases hfirst
      exact absurd hhalts hr
    · exact h.last before' r' after hrest hhalts
  whole hnone := by
    have hat := h.whole fun r' hr' => hnone r' (List.mem_cons_of_mem r hr')
    rwa [List.length_cons, Nat.add_comm rounds.length, ← Nat.add_assoc]
  halted := by
    rw [h.halted, List.findSome?_cons, Round.halted?_eq_none.mpr hr]
  tolerated := by
    rw [h.tolerated, List.append_assoc]
    cases htolerated : r.tolerated? <;> simp [htolerated]

/-- A round that halts is the last one. -/
theorem Settles.halting (place id : Nat) (name : String) (cause : Failure)
    (tolerated : List ListenerFailure) (v : World) :
    Settles place tolerated [⟨id, name, some cause, false⟩]
      ⟨some ⟨name, false, cause⟩, tolerated⟩ v where
  last before r after hparts _ := by
    rcases List.cons_eq_append_iff.mp hparts with ⟨rfl, hfirst⟩ | ⟨before', -, hnil⟩
    · cases hfirst
      rfl
    · simp at hnil
  whole hnone := absurd ⟨by simp, rfl⟩ (hnone _ List.mem_cons_self)
  halted := rfl
  tolerated := (List.append_nil tolerated).symm

/-- How a delivery goes on from a place: rounds are called until it returns, or until a callback
aborts, or until it has called as many listeners as it may. -/
inductive Goes (fire : Event → Run Bool) (key : String) (calls place : Nat)
    (tolerated : List ListenerFailure) (u : World) : Except Failure Delivery → World → Prop
  | returns {rounds : List Round} {d : Delivery} {v : World}
      (hrounds : Rounds fire key place u rounds v) (hsettles : Settles place tolerated rounds d v) :
      Goes fire key calls place tolerated u (.ok d) v
  | aborts {rounds : List Round} {id : Nat} {listener : Listener} {f : Failure} {u' v : World}
      (hrounds : Rounds fire key place u rounds u')
      (hat : u'.roster.at? (place + rounds.length) = some (id, listener))
      (hcall : exec (callListener fire key id listener) u' = (.error f, v))
      (habort : f.isAbort = true) : Goes fire key calls place tolerated u (.error f) v
  | exhausted {rounds : List Round} {u' : World} (hrounds : Rounds fire key place u rounds u')
      (hcalls : rounds.length = calls) :
      Goes fire key calls place tolerated u (.error endless) (u'.noted (.raised endless))

/-- A round that does not halt comes before the others. -/
theorem Goes.next {calls place id : Nat} {tolerated : List ListenerFailure} {listener : Listener}
    {called : Except Failure Unit} {result : Except Failure Delivery}
    (hat : u.roster.at? place = some (id, listener))
    (hcall : exec (callListener fire key id listener) u = (called, v))
    (hcaught : (failure? called).filter Failure.isAbort = none) {r : Round}
    (hr : r = ⟨id, listener.name, failure? called, v.roster.tolerates place⟩) (hgo : ¬r.Halts)
    (h : Goes fire key calls (place + 1) (tolerated ++ r.tolerated?.toList) v result w) :
    Goes fire key (calls + 1) place tolerated u result w := by
  have hplace : ∀ rounds : List Round,
      place + 1 + rounds.length = place + (r :: rounds).length := by
    intro rounds
    rw [List.length_cons]
    omega
  cases h with
  | returns hrounds hsettles =>
    exact .returns (.next hat hcall hcaught hrounds) (hr ▸ hsettles.cons hgo)
  | aborts hrounds hat' hcall' habort =>
    rw [hplace, hr] at hat'
    exact .aborts (.next hat hcall hcaught hrounds) hat' hcall' habort
  | exhausted hrounds hcalls =>
    exact .exhausted (.next hat hcall hcaught hrounds) (by rw [List.length_cons, hcalls])

theorem goes_deliverFrom (calls place : Nat) (tolerated : List ListenerFailure) (u : World) :
    Goes fire key calls place tolerated u (exec (deliverFrom fire key calls place tolerated) u).1
      (exec (deliverFrom fire key calls place tolerated) u).2 := by
  induction calls generalizing place tolerated u with
  | zero => exact .exhausted (.none place u) rfl
  | succ calls ih =>
    rcases hat : u.roster.at? place with _ | ⟨id, listener⟩
    · rw [exec_deliverFrom_done hat]
      exact .returns (.none place u) ⟨by simp, fun _ => hat, rfl, (List.append_nil _).symm⟩
    · rcases hcall : exec (callListener fire key id listener) u with ⟨cause | _, v⟩
      · cases hcause : cause.isAbort with
        | true =>
          rw [exec_deliverFrom_aborted hat hcall hcause]
          exact .aborts (.none place u) hat hcall hcause
        | false =>
          have hcaught : (failure? (.error cause : Except Failure Unit)).filter Failure.isAbort =
              none := by
            rw [failure?_error, Option.filter_some, hcause]
            rfl
          rw [exec_deliverFrom_failed hat hcall hcause]
          cases hpolicy : v.roster.tolerates place with
          | true =>
            rw [if_pos rfl]
            refine .next hat hcall hcaught (by rw [hpolicy]) ?_ (ih _ _ v)
            simp [Round.Halts]
          | false =>
            rw [if_neg Bool.false_ne_true]
            refine .returns (.next hat hcall hcaught (.none _ v)) ?_
            rw [hpolicy]
            exact .halting place id listener.name cause tolerated v
      · rw [exec_deliverFrom_well hat hcall]
        refine .next hat hcall rfl rfl (by simp [Round.Halts]) ?_
        have hnone :
            Round.tolerated? ⟨id, listener.name, none, v.roster.tolerates place⟩ = none := by
          unfold Round.tolerated?
          split <;> rfl
        rw [failure?_ok, hnone, Option.toList_none, List.append_nil]
        exact ih _ _ v

/-! ## The places of the listeners -/

namespace Roster

/-- The places of the registered listeners among those that were made, in the order of
registration; none after they were closed. -/
def places (r : Roster) : List Nat := if r.closed then [] else r.order

theorem at?_eq_none {r : Roster} {place : Nat} : r.at? place = none ↔ r.order.length ≤ place := by
  unfold at?
  rw [← List.getElem?_eq_none_iff]
  cases hplace : r.order[place]? with
  | none => simp
  | some id =>
    have hid := r.order_lt id (List.mem_of_getElem? hplace)
    simp [List.getElem?_eq_getElem hid]

theorem order_of_at? {r : Roster} {place id : Nat} {listener : Listener}
    (h : r.at? place = some (id, listener)) : r.order[place]? = some id := by
  unfold at? at h
  obtain ⟨id', hid', hmade⟩ := Option.bind_eq_some_iff.mp h
  obtain ⟨_, -, hsame⟩ := Option.map_eq_some_iff.mp hmade
  cases hsame
  exact hid'

end Roster

section
variable (hfire : ∀ event, Obeys Disposes (fire event)) {place : Nat} {rounds : List Round}
include hfire

theorem Rounds.order (h : Rounds fire key place u rounds v) :
    u.roster.order <+: v.roster.order := by
  induction h with
  | none => exact List.prefix_rfl
  | @next place id listener u v _ result rounds hat hcall hcaught rest ih =>
    have hdisposes := Disposes.law.callListener hfire key id listener u
    rw [hcall] at hdisposes
    exact hdisposes.order.trans ih

/-- The listeners stay in their places, so those that were called can be told from the roster at
the end. -/
theorem Rounds.ids_eq (h : Rounds fire key place u rounds v) :
    rounds.map Round.id = (v.roster.order.drop place).take rounds.length := by
  induction h with
  | none => rw [List.length_nil, List.take_zero, List.map_nil]
  | @next place id listener u v w result rounds hat hcall hcaught rest ih =>
    have hdisposes := Disposes.law.callListener hfire key id listener u
    rw [hcall] at hdisposes
    have horder := hdisposes.order.trans (rest.order hfire)
    have hplace : w.roster.order[place]? = some id := by
      obtain ⟨more, hmore⟩ := horder
      have hat := Roster.order_of_at? hat
      rw [← hmore, List.getElem?_append_left (List.getElem?_eq_some_iff.mp hat).1, hat]
    obtain ⟨hlt, rfl⟩ := List.getElem?_eq_some_iff.mp hplace
    rw [List.map_cons, ih, List.length_cons, List.drop_eq_getElem_cons hlt, List.take_succ_cons]

end

/-! ## The calls of a delivery itself -/

/-- The places of the listeners that are called while no event is under way, if so many are at
first. An event is under way until it is answered. -/
def World.directCalls : Nat → List Entry → List Nat
  | _, [] => []
  | events, .event _ :: rest => directCalls (events + 1) rest
  | events, .call (.fired _) :: rest => directCalls (events - 1) rest
  | 0, .call (.listener id _ _) :: rest => id :: directCalls 0 rest
  | events, _ :: rest => directCalls events rest

/-- The entry belongs to the delivery of an event. -/
def Entry.isDelivery : Entry → Bool
  | .event _ => true
  | .call c => c.isDelivery
  | _ => false

theorem World.directCalls_cons {entry : Entry} (h : entry.isDelivery = false) {events : Nat}
    {after : List Entry} :
    World.directCalls events (entry :: after) = World.directCalls events after := by
  cases entry with
  | event members => cases h
  | call c =>
    cases c with
    | listener id key name => cases h
    | fired ok => cases h
    | _ => simp [World.directCalls]
  | _ => simp [World.directCalls]

/-- What is noted calls no listener while so many events are under way at least, and all the events
that it has are answered unless it aborts. -/
def Covert (least : Nat) (u : World) (e : Option Failure) (v : World) : Prop :=
  ∃ new, v.journal = u.journal ++ new ∧ (e.filter Failure.isAbort = none →
    ∀ events, least ≤ events → ∀ after,
      World.directCalls events (new ++ after) = World.directCalls events after)

section
variable {least : Nat} {e : Option Failure}

private theorem covert_silent (h : v.journal = u.journal) : Covert least u e v :=
  ⟨[], by rw [h, List.append_nil], fun _ _ _ _ => rfl⟩

private theorem covert_noted (entry : Entry) (h : v.journal = u.journal ++ [entry])
    (hentry : ∀ events, least ≤ events → ∀ after,
      World.directCalls events (entry :: after) = World.directCalls events after) :
    Covert least u e v :=
  ⟨[entry], h, fun _ events hevents after => hentry events hevents after⟩

theorem Covert.trans (h : Covert least u none v) (h' : Covert least v e w) :
    Covert least u e w := by
  obtain ⟨new, hnew, hsame⟩ := h
  obtain ⟨new', hnew', hsame'⟩ := h'
  refine ⟨new ++ new', by rw [hnew', hnew, List.append_assoc], fun he events hevents after => ?_⟩
  rw [List.append_assoc, hsame rfl events hevents, hsame' he events hevents]

private theorem directCalls_closing {new : List Entry}
    (h : ∀ entry ∈ new, entry.isClosing = true) (events : Nat) (after : List Entry) :
    World.directCalls events (new ++ after) = World.directCalls events after := by
  induction new with
  | nil => rfl
  | cons entry new ih =>
    obtain ⟨hentry, hnew⟩ := List.forall_mem_cons.mp h
    rw [List.cons_append, World.directCalls_cons ?_, ih hnew]
    cases entry with
    | call c =>
      cases c with
      | close id name => rfl
      | _ => cases hentry
    | raised f => rfl
    | record r reach => rfl
    | _ => cases hentry

theorem Covert.law (least : Nat) : QuietLaw (Covert least) where
  refl w := covert_silent rfl
  fail w f _ := covert_silent rfl
  trans := Covert.trans
  recover h hf := by
    obtain ⟨new, hnew, hsame⟩ := h
    exact ⟨new, hnew, fun _ => hsame (by rw [Option.filter_some, hf]; rfl)⟩
  step h := by
    cases h with
    | raise f => exact covert_noted (.raised f) rfl fun _ _ _ => World.directCalls_cons rfl
    | record r => exact covert_noted (.record r _) rfl fun _ _ _ => World.directCalls_cons rfl
    | elsewhere r => exact covert_noted (.record r _) rfl fun _ _ _ => World.directCalls_cons rfl
    | call c hclosing hdelivery =>
      have hquiet : Entry.isDelivery (.call c) = false := hdelivery
      exact covert_noted (.call c) rfl fun _ _ _ => World.directCalls_cons hquiet
    | cleanup =>
      obtain ⟨new, hcleaned⟩ := cleanup_cleans _
      exact ⟨new, hcleaned.journal, fun _ events _ => directCalls_closing hcleaned.closing events⟩
    | _ => exact covert_silent rfl
  process w start := covert_noted (.process start) rfl fun _ _ _ => World.directCalls_cons rfl

/-- A listener that is called while an event is under way is called for that event. -/
theorem Covert.called (id : Nat) (name : String) (w : World) :
    Covert 1 w none (w.noted (.call (.listener id key name))) := by
  refine covert_noted (.call (.listener id key name)) rfl fun events hevents after => ?_
  obtain ⟨k, rfl⟩ : ∃ k, events = k + 1 := ⟨events - 1, by omega⟩
  rfl

end

/-- An event that a script fires is answered, and what is done for it is done while it is under
way. -/
def Answers (fire : Event → Run Bool) : Prop :=
  ∀ event, Obeys (Covert 0) (do let ok ← fire event; note (.call (.fired ok)))

section
variable (hfire : Answers fire)
include hfire

private theorem covert_actions (least : Nat) (actions : List Action) :
    Obeys (Covert least) (actions.forM (act fire)) := by
  have hcovert : Obeys (Covert 0) (actions.forM (act fire)) :=
    .forM (Covert.law 0).toLaw fun action _ => (Covert.law 0).act hfire action
  intro w
  obtain ⟨new, hnew, hsame⟩ := hcovert w
  exact ⟨new, hnew, fun he events _ => hsame he events (Nat.zero_le _)⟩

private theorem covert_deliver (key : String) : Obeys (Covert 1) (deliver fire key) := by
  have law := Covert.law 1
  refine .get_bind fun w => ?_
  split
  · exact .pure law.toLaw _
  · split
    · exact .pure law.toLaw _
    · refine law.deliverFrom (fun id listener => ?_) _ _ _
      exact .bind law.toLaw (Covert.called id listener.name) fun _ => covert_actions hfire 1 _

/-- An event is answered after it was delivered. -/
private theorem covert_answered (members : Members) (key : String) :
    Obeys (Covert 0) (do
      let ok ← (do return (← (do recordEvent members; deliver fire key)).ok : Run Bool)
      note (.call (.fired ok))) := by
  intro w
  let begun : Entry := .event (("timestamp", .text w.clock.next.text) :: members)
  have hdeliver := covert_deliver hfire key (w.recorded members)
  rcases hr : exec (deliver fire key) (w.recorded members) with ⟨f | d, v⟩
  · have hrecorded : exec (do recordEvent members; deliver fire key) w = (.error f, v) := hr
    rw [hr] at hdeliver
    obtain ⟨new, hnew, -⟩ := hdeliver
    rw [exec_bind_error (exec_bind_error hrecorded)]
    refine ⟨begun :: new, by rw [hnew]; exact List.append_assoc _ _ _, fun hcaught => ?_⟩
    -- there is no answer after an abort
    rw [failure?_error, Option.filter_some, OnlyAborts.deliver fire key _ f v hr] at hcaught
    cases hcaught
  · have hrecorded : exec (do recordEvent members; deliver fire key) w = (.ok d, v) := hr
    have hok : exec (do return (← (do recordEvent members; deliver fire key)).ok : Run Bool) w =
        (.ok d.ok, v) := by
      rw [exec_bind_ok hrecorded]
      rfl
    rw [hr] at hdeliver
    obtain ⟨new, hnew, hsame⟩ := hdeliver
    rw [exec_bind_ok hok, exec_note]
    refine ⟨begun :: (new ++ [.call (.fired d.ok)]), ?_, fun _ events _ after => ?_⟩
    · show v.journal ++ [_] = _
      rw [hnew]
      exact (List.append_assoc _ _ _).trans (List.append_assoc _ _ _)
    · have hwithin := hsame rfl (events + 1) (Nat.le_add_left 1 events)
        (.call (.fired d.ok) :: after)
      rw [List.cons_append, List.append_assoc]
      exact hwithin

end

private theorem answers_within (depth : Nat) : Answers (firing (some depth)) := by
  induction depth with
  | zero =>
    refine fun event w => ⟨[.raised endless], rfl, fun hcaught => ?_⟩
    cases hcaught
  | succ depth ih => exact fun event => covert_answered ih event.members event.key

theorem answers_firing (depth : Option Nat) : Answers (firing depth) := by
  cases depth with
  | some depth => exact answers_within depth
  | none => exact fun event w => answers_within w.limits.nesting event w

theorem disposes_firing (depth : Option Nat) (event : Event) :
    Obeys Disposes (firing depth event) := by
  cases depth with
  | some depth =>
    exact .bind Disposes.law.toLaw (Disposes.law.deliveryLaw.fireWithin depth event) fun _ =>
      .pure Disposes.law.toLaw _
  | none => exact Disposes.law.deliveryLaw.fired event

/-- The calls of the rounds are those of the delivery itself. -/
theorem Rounds.directCalls (hfire : Answers fire) {place : Nat} {rounds : List Round}
    (h : Rounds fire key place u rounds v) : ∃ new, v.journal = u.journal ++ new ∧
      ∀ after, World.directCalls 0 (new ++ after) =
        rounds.map Round.id ++ World.directCalls 0 after := by
  induction h with
  | none place w => exact ⟨[], (List.append_nil _).symm, fun _ => rfl⟩
  | @next place id listener u v w result rounds hat hcall hcaught rest ih =>
    obtain ⟨more, hmore, hrest⟩ := ih
    have hscript : exec ((listener.actions key).forM (act fire))
        (u.noted (.call (.listener id key listener.name))) = (result, v) := hcall
    obtain ⟨new, hnew, hsame⟩ := covert_actions hfire 0 (listener.actions key)
      (u.noted (.call (.listener id key listener.name)))
    rw [hscript] at hnew hsame
    refine ⟨.call (.listener id key listener.name) :: (new ++ more), ?_, fun after => ?_⟩
    · rw [hmore, hnew]
      exact (List.append_assoc _ _ _).trans (List.append_assoc _ _ _)
    · show id :: World.directCalls 0 (new ++ more ++ after) = _
      rw [List.append_assoc, hsame hcaught 0 le_rfl, hrest]
      rfl

/-! ## What a delivery comes to -/

/-- A delivery has returned after its rounds. The listeners that it called are a first part of the
registered ones, none called more often than it is registered; only the last one may halt it, and
if none does, all are called.
The failure that halts it and those that are tolerated are told with their listeners and causes. -/
structure Dispatched (fire : Event → Run Bool) (key : String) (w : World) (rounds : List Round)
    (d : Delivery) (v : World) : Prop where
  called : Rounds fire key 0 w rounds v
  initial : rounds.map Round.id <+: v.roster.places
  once : ∀ id, (rounds.map Round.id).count id ≤ v.roster.places.count id
  last : ∀ before r after, rounds = before ++ r :: after → r.Halts → after = []
  whole : rounds.map Round.id = v.roster.places ∨ ∃ r ∈ rounds, r.Halts
  halted : d.halted = rounds.findSome? Round.halted?
  tolerated : d.tolerated = rounds.filterMap Round.tolerated?
  ok_iff : d.ok = true ↔ ∀ r ∈ rounds, r.failure = none

theorem Round.failure_eq_none {r : Round} :
    r.failure = none ↔ r.halted? = none ∧ r.tolerated? = none := by
  unfold Round.halted? Round.tolerated?
  cases r.tolerant <;> simp

/-- A delivery to listeners that were not closed before, nor while it went on. -/
theorem Settles.dispatched (hfire : ∀ event, Obeys Disposes (fire event)) {rounds : List Round}
    {d : Delivery} (hrounds : Rounds fire key 0 w rounds v) (h : Settles 0 [] rounds d v)
    (hopen : v.roster.closed = false) : Dispatched fire key w rounds d v := by
  have hplaces : v.roster.places = v.roster.order := by
    unfold Roster.places
    rw [hopen, if_neg Bool.false_ne_true]
  have hids : rounds.map Round.id = v.roster.order.take rounds.length := hrounds.ids_eq hfire
  have htolerated : d.tolerated = rounds.filterMap Round.tolerated? := h.tolerated
  have hinitial : rounds.map Round.id <+: v.roster.places := by
    rw [hplaces, hids]
    exact List.take_prefix _ _
  refine ⟨hrounds, hinitial, hinitial.sublist.count_le, h.last, ?_, h.halted, htolerated, ?_⟩
  · by_cases hhalts : ∃ r ∈ rounds, r.Halts
    · exact .inr hhalts
    · have hat := h.whole fun r hr hr' => hhalts ⟨r, hr, hr'⟩
      rw [Nat.zero_add, Roster.at?_eq_none] at hat
      rw [hplaces, hids, List.take_of_length_le hat]
      exact .inl rfl
  · unfold Delivery.ok
    rw [Bool.and_eq_true, Option.isNone_iff_eq_none, List.isEmpty_iff, h.halted, htolerated,
      List.findSome?_eq_none_iff, List.filterMap_eq_nil_iff]
    constructor
    · rintro ⟨hhalted, hnone⟩ r hr
      exact Round.failure_eq_none.mpr ⟨hhalted r hr, hnone r hr⟩
    · intro hall
      exact ⟨fun r hr => (Round.failure_eq_none.mp (hall r hr)).1,
        fun r hr => (Round.failure_eq_none.mp (hall r hr)).2⟩

/-- A delivery whose result is not forced, and during which no listeners are closed, returns with
the failures of its rounds, unless a callback aborts, or more listeners are registered meanwhile
than a delivery may call. -/
theorem deliver_rounds (depth : Option Nat) {result : Except Failure Delivery}
    (hexec : exec (deliver (firing depth) key) w = (result, v))
    (hforced : w.forced.lookup key = none) (hclosed : v.roster.closed = w.roster.closed) :
    (∃ d rounds new, result = .ok d ∧ v.journal = w.journal ++ new ∧
      World.directCalls 0 new = rounds.map Round.id ∧
      Dispatched (firing depth) key w rounds d v) ∨
    (∃ rounds u id listener f, Rounds (firing depth) key 0 w rounds u ∧
      u.roster.at? rounds.length = some (id, listener) ∧
      exec (callListener (firing depth) key id listener) u = (.error f, v) ∧
      f.isAbort = true ∧ result = .error f) ∨
    (result = .error endless ∧
      w.roster.order.length + w.limits.calls < v.roster.order.length) := by
  unfold deliver at hexec
  rw [exec_bind_ok (exec_get w), hforced] at hexec
  cases hopen : w.roster.closed with
  | true =>
    simp only [hopen, if_true] at hexec
    cases hexec
    have hplaces : v.roster.places = [] := by
      unfold Roster.places
      rw [hopen, if_pos rfl]
    exact .inl ⟨_, [], [], rfl, (List.append_nil _).symm, rfl, .none 0 v, List.nil_prefix,
      by simp, by simp, .inl hplaces.symm, rfl, rfl, by simp [Delivery.ok]⟩
  | false =>
    simp only [hopen, Bool.false_eq_true, if_false] at hexec
    let calls := w.roster.order.length + w.limits.calls + 1
    have hgoes : Goes (firing depth) key calls 0 [] w
        (exec (deliverFrom (firing depth) key calls 0 []) w).1
        (exec (deliverFrom (firing depth) key calls 0 []) w).2 := goes_deliverFrom calls 0 [] w
    rw [hexec] at hgoes
    cases hgoes with
    | @returns rounds d _ hrounds hsettles =>
      obtain ⟨new, hnew, hcalls⟩ := hrounds.directCalls (answers_firing depth)
      refine .inl ⟨d, rounds, new, rfl, hnew, ?_,
        hsettles.dispatched (disposes_firing depth) hrounds (hclosed.trans hopen)⟩
      have hall := hcalls []
      rwa [List.append_nil, World.directCalls, List.append_nil] at hall
    | aborts hrounds hat hcall habort =>
      rw [Nat.zero_add] at hat
      exact .inr (.inl ⟨_, _, _, _, _, hrounds, hat, hcall, habort, rfl⟩)
    | @exhausted rounds u hrounds hcalls =>
      refine .inr (.inr ⟨rfl, ?_⟩)
      -- each round called another one of the registered listeners
      have hlength := congrArg List.length (hrounds.ids_eq (disposes_firing depth))
      rw [List.length_map, List.drop_zero, List.length_take] at hlength
      show w.roster.order.length + w.limits.calls < u.roster.order.length
      omega

/-- The first listener registers a fourth one, has the second one tolerated, and fires an event on
which the third one fails. The second fails and is tolerated, and the fourth fails and is not. -/
theorem deliver_rounds_registering :
    ∃ (w : World) (v : World), w.forced.lookup "session_start" = none ∧
      v.roster.closed = w.roster.closed ∧
      ∃ d rounds new, exec (deliver (firing none) "session_start") w = (.ok d, v) ∧
        v.journal = w.journal ++ new ∧ World.directCalls 0 new = rounds.map Round.id ∧
        Dispatched (firing none) "session_start" w rounds d v ∧
        d = ⟨some ⟨"Fourth", false, .plain .value "late"⟩,
          [⟨"Second", true, .plain .value "early"⟩]⟩ := by
  let first : Listener := ⟨"First", false, [], [("session_start",
    [.register "Fourth" false [] [("session_start", [.raise (.plain .value "late")])],
      .policy "Second" true, .fire (.before "deploy")])]⟩
  let second : Listener :=
    ⟨"Second", false, [], [("session_start", [.raise (.plain .value "early")])]⟩
  let third : Listener :=
    ⟨"Third", false, [], [("deploy:before", [.raise (.plain .value "nested")])]⟩
  let w : World := .withListeners [first, second, third]
  let d : Delivery :=
    ⟨some ⟨"Fourth", false, .plain .value "late"⟩, [⟨"Second", true, .plain .value "early"⟩]⟩
  have hresult : (exec (deliver (firing none) "session_start") w).1 = .ok d := by decide +kernel
  have hclosed : (exec (deliver (firing none) "session_start") w).2.roster.closed =
      w.roster.closed := by
    decide +kernel
  obtain ⟨v, hexec⟩ : ∃ v, exec (deliver (firing none) "session_start") w = (.ok d, v) :=
    ⟨(exec (deliver (firing none) "session_start") w).2, Prod.ext hresult rfl⟩
  rw [hexec] at hclosed
  rcases deliver_rounds none hexec rfl hclosed with ⟨d', rounds, new, hok, hnew, hcalls, hd⟩ |
    ⟨_, _, _, _, _, _, _, _, _, habort⟩ | ⟨hexhausted, -⟩
  · cases hok
    exact ⟨w, v, rfl, hclosed, d, rounds, new, hexec, hnew, hcalls, hd, rfl⟩
  · cases habort
  · cases hexhausted

end ReleaseRunner.Session
