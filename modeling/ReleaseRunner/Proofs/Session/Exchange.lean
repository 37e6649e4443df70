import ReleaseRunner.Proofs.Session.Envelope

/-!
# What passes between the runner and the rest

An `Exchange` is an act of the runner together with what came of it: how the hooks or an item
ended, or what the delivery of an event gave. `Performed` says that exchanges really happened
on the way from one world to another: each answer is the one that the hooks, the listeners or
the item give in the world of that moment, and in between the runner only sees to its own
affairs, or settles the outcome. The verdict over a run is read off its exchanges alone.
`Chronicled` also gives the records that the runner makes by itself; those that plugins make belong
to the exchanges.
-/

namespace ReleaseRunner.Session

open Config Log

/-- An act of the runner and what came of it. -/
inductive Exchange where
  | beforeHooks (failure : Option Failure)
  | sessionStart (delivery : Delivery)
  | before (item : Item) (delivery : Delivery)
  | invoke (item : Item) (failure : Option Failure)
  | failed (item : Item) (cause : Failure) (delivery : Delivery)
  | succeeded (item : Item) (delivery : Delivery)
  | sessionEnd (delivery : Delivery)
  | stamp
  | report (failure : Option Failure)
  | closingHooks (phase : Phase) (cause failure : Option Failure)
  | cleanup
  | closeLog

namespace Exchange

/-- The act of an exchange, as it stands in the journal. -/
def act : Exchange → Act
  | beforeHooks _ => .beforeHooks
  | sessionStart _ => .sessionStart
  | before item _ => .before item.stage.name
  | invoke item _ => .invoke item.stage.name
  | failed item _ _ => .failed item.stage.name
  | succeeded item _ => .succeeded item.stage.name
  | sessionEnd _ => .sessionEnd
  | stamp => .stamp
  | report _ => .report
  | closingHooks phase _ _ => .closingHooks phase
  | cleanup => .cleanup
  | closeLog => .closeLog

/-- The failure that an exchange brings from a source. -/
def failure? (source : Source) : Exchange → Option Failure
  | beforeHooks failure => if source = .beforeHook then failure else none
  | sessionStart delivery =>
    if source = .startListener then delivery.halted.map (·.cause) else none
  | before _ delivery => if source = .loopListener then delivery.halted.map (·.cause) else none
  | invoke _ failure => if source = .step then failure else none
  | failed _ _ delivery =>
    if source = .loopListener then delivery.halted.map (·.cause) else none
  | succeeded _ delivery =>
    if source = .loopListener then delivery.halted.map (·.cause) else none
  | sessionEnd delivery => if source = .endListener then delivery.halted.map (·.cause) else none
  | _ => none

end Exchange

/-! ## The verdict -/

/-- The last failure that came from a source. -/
def lastOf (source : Source) (t : List Exchange) : Option Failure :=
  t.reverse.findSome? (·.failure? source)

/-- The sources of failure in the order in which they decide. -/
def precedence : List Source := [.beforeHook, .endListener, .step, .startListener, .loopListener]

/-- The outcome of a session with the given exchanges, whenever its failures came. -/
def verdict (t : List Exchange) : Outcome :=
  (precedence.findSome? fun source => (lastOf source t).map (Outcome.failure source)).getD .success

theorem lastOf_append (source : Source) (t t' : List Exchange) :
    lastOf source (t ++ t') = (lastOf source t').or (lastOf source t) := by
  unfold lastOf
  rw [List.reverse_append, List.findSome?_append]

@[simp] theorem lastOf_nil (source : Source) : lastOf source [] = none := rfl

theorem lastOf_cons (source : Source) (e : Exchange) (t : List Exchange) :
    lastOf source (e :: t) = (lastOf source t).or (e.failure? source) := by
  have hsingle : lastOf source [e] = e.failure? source := by
    unfold lastOf
    simp
  rw [← List.singleton_append, lastOf_append, hsingle]

/-! ## What really happened -/

/-- How a computation without a result ends in a world. -/
def Ends (x : Run Unit) (u : World) (failure : Option Failure) (v : World) : Prop :=
  failure? (exec x u).1 = failure ∧ (exec x u).2 = v

theorem ends_of_ok {x : Run Unit} {u v : World} (h : exec x u = (.ok (), v)) :
    Ends x u none v := by
  unfold Ends
  rw [h]
  exact ⟨rfl, rfl⟩

theorem ends_of_error {x : Run Unit} {u v : World} {f : Failure}
    (h : exec x u = (.error f, v)) : Ends x u (some f) v := by
  unfold Ends
  rw [h]
  exact ⟨rfl, rfl⟩

theorem exec_of_ends {x : Run Unit} {u v : World} (h : Ends x u none v) :
    exec x u = (.ok (), v) := by
  obtain ⟨hok, hworld⟩ := h
  rcases hr : exec x u with ⟨f | _, u'⟩
  · rw [hr] at hok
    cases hok
  · rw [hr] at hworld
    rw [show u' = v from hworld]

/-- From the one world to the other, the exchange takes place after its act was noted. -/
def Exchange.Happens (setup : Setup) (runner : HookRunner) : Exchange → World → World → Prop
  | .beforeHooks failure, u, v => Ends (runHooks runner (.before sessionScope)) u failure v
  | .sessionStart delivery, u, v => exec fireStart u = (.ok delivery, v)
  | .before item delivery, u, v => exec (fire (.before item.stage.name)) u = (.ok delivery, v)
  | .invoke item failure, u, v => Ends item.invoke u failure v
  | .failed item cause delivery, u, v =>
    exec (fire (.failed item.stage.name cause)) u = (.ok delivery, v)
  | .succeeded item delivery, u, v => exec (fire (.success item.stage.name)) u = (.ok delivery, v)
  | .sessionEnd delivery, u, v => exec fireEnd u = (.ok delivery, v)
  | .stamp, u, v => v = { u with clock := u.clock.read.2, ended := true }
  | .report failure, u, v => Ends (Session.report setup) u failure v
  | .closingHooks phase cause failure, u, v =>
    Ends (runHooks runner ⟨sessionScope, phase, cause⟩) u failure v
  | .cleanup, u, v => exec Session.cleanup u = (.ok (), v)
  | .closeLog, u, v => exec Session.closeLog u = (.ok (), v)

/-- The runner only sees to its own affairs: it logs and tags its records. -/
structure Aside (u v : World) : Prop where
  rest : v = { u with journal := v.journal, log := { u.log with step := v.log.step } }
  journal : ∃ new, v.journal = u.journal ++ new ∧
    ∀ entry ∈ new, ∃ record, entry = .record record (u.reach record.level)

/-- The exchanges take place one after the other on the way from one world to another. -/
inductive Performed (setup : Setup) (runner : HookRunner) :
    World → List Exchange → World → Prop
  | nil (w : World) : Performed setup runner w [] w
  | aside {u v w : World} {t : List Exchange} (h : Aside u v)
      (rest : Performed setup runner v t w) : Performed setup runner u t w
  | settled {u w : World} {t : List Exchange} (outcome : Outcome)
      (rest : Performed setup runner { u with outcome := some outcome } t w) :
      Performed setup runner u t w
  | exchange {u v w : World} {e : Exchange} {t : List Exchange}
      (h : e.Happens setup runner (u.noted (.act e.act)) v)
      (rest : Performed setup runner v t w) : Performed setup runner u (e :: t) w

/-- The exchanges take place in the same way, and these are the records that the runner makes by
itself around them. -/
inductive Chronicled (setup : Setup) (runner : HookRunner) :
    World → List Exchange → List Record → World → Prop
  | nil (w : World) : Chronicled setup runner w [] [] w
  | aside {u v w : World} {t : List Exchange} {new : List Entry} {own : List Record}
      (h : Aside u v) (hnew : v.journal = u.journal ++ new)
      (rest : Chronicled setup runner v t own w) :
      Chronicled setup runner u t (World.records new ++ own) w
  | settled {u w : World} {t : List Exchange} {own : List Record} (outcome : Outcome)
      (rest : Chronicled setup runner { u with outcome := some outcome } t own w) :
      Chronicled setup runner u t own w
  | exchange {u v w : World} {e : Exchange} {t : List Exchange} {own : List Record}
      (h : e.Happens setup runner (u.noted (.act e.act)) v)
      (rest : Chronicled setup runner v t own w) : Chronicled setup runner u (e :: t) own w

theorem Aside.refl (w : World) : Aside w w := ⟨rfl, [], by simp, by simp⟩

/-- How far records get does not change with them. -/
theorem Aside.reach {u v : World} (h : Aside u v) (level : Level) :
    v.reach level = u.reach level := by
  rw [h.rest]
  rfl

theorem Aside.trans {u v w : World} (h : Aside u v) (h' : Aside v w) : Aside u w := by
  obtain ⟨new, hnew, hrecords⟩ := h.journal
  obtain ⟨new', hnew', hrecords'⟩ := h'.journal
  simp only [h.reach] at hrecords'
  refine ⟨by rw [h'.rest, h.rest], new ++ new', ?_, fun entry hentry => ?_⟩
  · rw [hnew', hnew, List.append_assoc]
  · rcases List.mem_append.mp hentry with hentry | hentry
    · exact hrecords entry hentry
    · exact hrecords' entry hentry

section
variable {setup : Setup} {runner : HookRunner}

theorem Performed.trans {u v w : World} {t t' : List Exchange}
    (h : Performed setup runner u t v) (h' : Performed setup runner v t' w) :
    Performed setup runner u (t ++ t') w := by
  induction h with
  | nil => exact h'
  | aside haside _ ih => exact .aside haside (ih h')
  | settled outcome _ ih => exact .settled outcome (ih h')
  | exchange he _ ih => exact .exchange he (ih h')

theorem Chronicled.trans {u v w : World} {t t' : List Exchange} {own own' : List Record}
    (h : Chronicled setup runner u t own v) (h' : Chronicled setup runner v t' own' w) :
    Chronicled setup runner u (t ++ t') (own ++ own') w := by
  induction h with
  | nil => exact h'
  | aside haside hnew _ ih =>
    rw [List.append_assoc]
    exact .aside haside hnew (ih h')
  | settled outcome _ ih => exact .settled outcome (ih h')
  | exchange he _ ih => exact .exchange he (ih h')

/-- Exchanges that are told with the records of the runner take place. -/
theorem Chronicled.performed {u v : World} {t : List Exchange} {own : List Record}
    (h : Chronicled setup runner u t own v) : Performed setup runner u t v := by
  induction h with
  | nil w => exact .nil w
  | aside haside _ _ ih => exact .aside haside ih
  | settled outcome _ ih => exact .settled outcome ih
  | exchange he _ ih => exact .exchange he ih

/-! ## The acts in the journal -/

/-- Nothing is noted as an act of the runner. -/
def Actless (u : World) (_ : Option Failure) (v : World) : Prop :=
  World.acts v.journal = World.acts u.journal

private theorem actless_noted {u v : World} (entry : Entry) {e : Option Failure}
    (hjournal : v.journal = u.journal ++ [entry]) (h : World.acts [entry] = []) :
    Actless u e v := by
  unfold Actless
  rw [hjournal, World.acts_append, h, List.append_nil]

/-- All that the runner calls on leaves noting acts to the runner. -/
theorem Actless.law : PluginLaw Actless where
  refl _ := rfl
  fail _ _ _ := rfl
  trans h h' := h'.trans h
  recover h _ := h
  step h := by
    cases h with
    | raise f => exact actless_noted (.raised f) rfl rfl
    | record r => exact actless_noted (.record r _) rfl rfl
    | elsewhere r => exact actless_noted (.record r _) rfl rfl
    | call c => exact actless_noted (.call c) rfl rfl
    | cleanup =>
      obtain ⟨new, h⟩ := cleanup_cleans _
      unfold Actless
      rw [h.journal, World.acts_append, acts_of_isClosing h.closing, List.append_nil]
    | _ => rfl
  heard _ c _ := actless_noted (.call c) rfl rfl
  event _ members := actless_noted (.event members) rfl rfl
  process _ start := actless_noted (.process start) rfl rfl

theorem acts_eq_nil {u v : World} {new : List Entry} (hnew : v.journal = u.journal ++ new)
    (h : World.acts v.journal = World.acts u.journal) : World.acts new = [] := by
  rw [hnew, World.acts_append] at h
  exact List.append_right_eq_self.mp h

/-- Where no act is noted, the journal grows by entries that are none. -/
theorem exists_actless {u v : World} {e : Option Failure} (h : Passes u e v)
    (hacts : Actless u e v) : ∃ new, v.journal = u.journal ++ new ∧ World.acts new = [] := by
  obtain ⟨new, hnew⟩ := h
  exact ⟨new, hnew.journal, acts_eq_nil hnew.journal hacts⟩

/-- What holds of all that the runner calls on holds of every exchange. -/
theorem Exchange.Happens.obeys {P : World → Option Failure → World → Prop} (law : PluginLaw P)
    (hstamp : ∀ w, P w none { w with clock := w.clock.read.2, ended := true }) {e : Exchange}
    {u v : World} (h : e.Happens setup runner u v) : ∃ failure, P u failure v := by
  have hends : ∀ {x : Run Unit} {failure : Option Failure}, Obeys P x → Ends x u failure v →
      ∃ failure, P u failure v := fun hx h => ⟨_, h.2 ▸ hx u⟩
  have hgives : ∀ {α : Type} {x : Run α} {a : α}, Obeys P x → exec x u = (.ok a, v) →
      ∃ failure, P u failure v := by
    intro α x a hx h
    have hlaw := hx u
    rw [h] at hlaw
    exact ⟨_, hlaw⟩
  cases e with
  | beforeHooks failure => exact hends (law.runHooks _ _) h
  | sessionStart delivery => exact hgives law.deliveryLaw.fireStart h
  | before item delivery => exact hgives (law.deliveryLaw.fire _) h
  | invoke item failure => exact hends (law.invoke item) h
  | failed item cause delivery => exact hgives (law.deliveryLaw.fire _) h
  | succeeded item delivery => exact hgives (law.deliveryLaw.fire _) h
  | sessionEnd delivery => exact hgives law.deliveryLaw.fireEnd h
  | stamp => exact ⟨none, (show v = _ from h) ▸ hstamp u⟩
  | report failure => exact hends (law.report setup) h
  | closingHooks phase cause failure => exact hends (law.runHooks _ _) h
  | cleanup => exact hgives (fun w => law.step (.cleanup w)) h
  | closeLog => exact hgives (x := Session.closeLog) (fun w => law.step (.closeLog w)) h

theorem Exchange.Happens.acts {e : Exchange} {u v : World} (h : e.Happens setup runner u v) :
    World.acts v.journal = World.acts u.journal :=
  (h.obeys Actless.law fun _ => rfl).choose_spec

theorem Aside.acts {u v : World} (h : Aside u v) :
    World.acts v.journal = World.acts u.journal := by
  obtain ⟨new, hnew, hrecords⟩ := h.journal
  have hnone : World.acts new = [] := by
    refine List.filterMap_eq_nil_iff.mpr fun entry hentry => ?_
    obtain ⟨record, rfl⟩ := hrecords entry hentry
    rfl
  rw [hnew, World.acts_append, hnone, List.append_nil]

/-- The acts of the runner in the journal are those of the exchanges. -/
theorem Performed.acts {u v : World} {t : List Exchange} (h : Performed setup runner u t v) :
    World.acts v.journal = World.acts u.journal ++ t.map Exchange.act := by
  -- an act is noted before its answer, and the answer notes no further one
  induction h with
  | nil w => simp
  | aside haside _ ih => rw [ih, haside.acts]
  | settled outcome _ ih => exact ih
  | @exchange u v w e t he _ ih =>
    have hnoted : World.acts (u.noted (.act e.act)).journal = World.acts u.journal ++ [e.act] := by
      unfold World.noted
      rw [World.acts_append]
      rfl
    rw [ih, he.acts, hnoted, List.map_cons, List.append_assoc]
    rfl

end

end ReleaseRunner.Session
