import ReleaseRunner.Proofs.Session.Disposal
import ReleaseRunner.Proofs.Session.Marks

/-!
# What is logged under a tag

A `Remark` is what somebody asks the logger of the session to record. Under the name of a step it
becomes a record that carries this name, unless whoever asks gives one himself (`Logged`).
`Under` says of a computation that it leaves this name as it is and that all it adds to the log are
remarks of the allowed kind. It holds of what the runner and the hooks log, whatever that name is,
and of listeners and performers of stages as long as they do not set one themselves
(`Scene.ofScripts`).
-/

namespace ReleaseRunner.Session

open Config Log

/-! ## Remarks and records -/

/-- What the logger of the session is asked to record. -/
structure Remark where
  level : Level
  message : String
  values : List Json
  extra : Members
  traceback : Bool

/-- Whoever asks gives a step himself. -/
def Remark.GivesStep (remark : Remark) : Prop := "step" ∈ remark.extra.map Prod.fst

/-- What a remark becomes under a tag: a record that carries it, unless a step was given, which
stays. Without a tag the record carries nothing but what was given. -/
inductive Logged (asked : Remark → Prop) : Option String → Record → Prop
  | given {tag : Option String} {remark : Remark} {record : Record} (h : asked remark)
      (hstep : remark.GivesStep)
      (hrecord : Record.make? sessionLogger remark.level remark.message remark.values remark.extra
        remark.traceback = some record) : Logged asked tag record
  | tagged {step : String} {remark : Remark} {record : Record} (h : asked remark)
      (hstep : ¬remark.GivesStep)
      (hrecord : Record.make? sessionLogger remark.level remark.message remark.values
        (remark.extra ++ [("step", .text step)]) remark.traceback = some record)
      (hcarries : ("step", .text step) ∈ record.extra) : Logged asked (some step) record
  | untagged {remark : Remark} {record : Record} (h : asked remark) (hstep : ¬remark.GivesStep)
      (hrecord : Record.make? sessionLogger remark.level remark.message remark.values remark.extra
        remark.traceback = some record)
      (hcarries : "step" ∉ record.extra.map Prod.fst) : Logged asked none record

/-- The records of the session's logger among entries. -/
def World.said (entries : List Entry) : List Record :=
  (World.records entries).filter (·.logger == sessionLogger)

theorem World.said_append (a b : List Entry) : said (a ++ b) = said a ++ said b := by
  unfold said records
  rw [List.filterMap_append, List.filter_append]

theorem World.mem_said {entries : List Entry} {record : Record} {reach : Reach}
    (h : .record record reach ∈ entries) (hlogger : record.logger = sessionLogger) :
    record ∈ said entries :=
  List.mem_filter.mpr ⟨List.mem_filterMap.mpr ⟨_, h, rfl⟩, beq_iff_eq.mpr hlogger⟩

theorem givesStep_iff {remark : Remark} :
    remark.GivesStep ↔ remark.extra.any (·.1 == "step") = true := by
  unfold Remark.GivesStep
  simp [List.any_eq_true]

theorem record_of_make? {logger : String} {level : Level} {message : String} {values : List Json}
    {extra : Members} {traceback : Bool} {record : Record}
    (h : Record.make? logger level message values extra traceback = some record) :
    record.logger = logger ∧ record.extra = extra.filter fun (name, _) => Record.isShown name := by
  obtain ⟨-, text, -, rfl⟩ := Record.make?_eq_some_iff.mp h
  exact ⟨rfl, rfl⟩

/-- The log makes of a remark what its tag says. -/
theorem Logged.of_tagged {asked : Remark → Prop} {remark : Remark} (h : asked remark)
    {log : SessionLog} {record : Record}
    (hrecord : Record.make? sessionLogger remark.level remark.message remark.values
      (log.tagged remark.extra) remark.traceback = some record) :
    Logged asked log.step record := by
  have hextra := (record_of_make? hrecord).2
  unfold SessionLog.tagged at hrecord hextra
  by_cases hgiven : remark.GivesStep
  · refine .given h hgiven ?_
    cases hstep : log.step with
    | none => simpa only [hstep] using hrecord
    | some step => simpa only [hstep, if_pos (givesStep_iff.mp hgiven)] using hrecord
  · cases hstep : log.step with
    | none =>
      simp only [hstep] at hrecord hextra
      refine .untagged h hgiven hrecord fun hmem => hgiven ?_
      rw [hextra] at hmem
      exact List.map_subset _ (List.filter_subset_self _) hmem
    | some step =>
      simp only [hstep, if_neg (mt givesStep_iff.mpr hgiven)] at hrecord hextra
      refine .tagged h hgiven hrecord ?_
      have hshown : Record.isShown "step" = true := by decide +kernel
      rw [hextra]
      exact List.mem_filter.mpr ⟨List.mem_append_right _ List.mem_cons_self, hshown⟩

/-- Where nobody gives a step and there is no tag, a record carries none. -/
theorem Logged.stepless {record : Record}
    (h : Logged (fun remark => ¬remark.GivesStep) none record) :
    "step" ∉ record.extra.map Prod.fst := by
  cases h with
  | given h hstep _ => exact absurd hstep h
  | untagged _ _ _ hcarries => exact hcarries

/-! ## Under a tag -/

/-- What may be asked of the logger while the roster is as it should be. The runner and the hooks
may always ask without a step of their own. -/
structure Scene where
  asked : Remark → Prop
  calm : Roster → Prop
  own : ∀ remark : Remark, ¬remark.GivesStep → asked remark

/-- The tag stays as it is. The acts on the way belong to its step, and what is logged on the way is
logged under it. -/
def Under (s : Scene) (tag : Option String) (u : World) (_ : Option Failure) (v : World) : Prop :=
  s.calm u.roster → u.log.step = tag → s.calm v.roster ∧ v.log.step = tag ∧
    ∃ new, v.journal = u.journal ++ new ∧ (∀ act ∈ World.acts new, act.tag = tag) ∧
      ∀ record ∈ World.said new, Logged s.asked tag record

section
variable {s : Scene} {tag : Option String}

theorem Under.silent {u v : World} {e : Option Failure}
    (hcalm : s.calm u.roster → s.calm v.roster) (hstep : v.log.step = u.log.step)
    (hjournal : v.journal = u.journal) : Under s tag u e v :=
  fun h htag => ⟨hcalm h, hstep.trans htag, [], by rw [hjournal, List.append_nil],
    by simp [World.acts], by simp [World.said, World.records]⟩

theorem Under.noted (w : World) (e : Option Failure) {entry : Entry}
    (hact : World.acts [entry] = []) (hsaid : World.said [entry] = []) :
    Under s tag w e (w.noted entry) :=
  fun hcalm htag => ⟨hcalm, htag, [entry], rfl, by simp [hact], by simp [hsaid]⟩

theorem Under.trans {u v w : World} {e e' e'' : Option Failure} (h : Under s tag u e v)
    (h' : Under s tag v e' w) : Under s tag u e'' w := by
  intro hcalm htag
  obtain ⟨hcalm, htag, new, hnew, hacts, hsaid⟩ := h hcalm htag
  obtain ⟨hcalm, htag, new', hnew', hacts', hsaid'⟩ := h' hcalm htag
  refine ⟨hcalm, htag, new ++ new', by rw [hnew', hnew, List.append_assoc], ?_, ?_⟩
  · rw [World.acts_append, List.forall_mem_append]
    exact ⟨hacts, hacts'⟩
  · rw [World.said_append, List.forall_mem_append]
    exact ⟨hsaid, hsaid'⟩

theorem Under.law : Law (Under s tag) where
  refl _ := .silent id rfl rfl
  fail _ _ _ := .silent id rfl rfl
  trans h h' := h.trans h'
  recover h _ := h

theorem Under.mark {act : Act} (h : act.tag = tag) : Obeys (Under s tag) (Session.mark act) :=
  fun w hcalm htag => ⟨hcalm, htag, [.act act], rfl, by simp [World.acts, h],
    by simp [World.said, World.records]⟩

/-- What is asked is recorded under the tag. -/
theorem Under.say {level : Level} {message : String} {values : List Json} {extra : Members}
    {traceback : Bool} (h : s.asked ⟨level, message, values, extra, traceback⟩) :
    Obeys (Under s tag) (Session.say level message values extra traceback) := by
  intro w
  rw [exec_say]
  cases Record.refusal? (w.log.tagged extra) with
  | some refusal => exact .silent id rfl rfl
  | none =>
    dsimp only
    cases hrecord : Record.make? sessionLogger level message values (w.log.tagged extra)
      traceback with
    | none => exact .silent id rfl rfl
    | some record =>
      have hlogged := Logged.of_tagged h hrecord
      have hlogger := (record_of_make? hrecord).1
      intro hcalm htag
      refine ⟨hcalm, htag, [.record record _], rfl, by simp [World.acts], ?_⟩
      rw [← htag]
      simpa [World.said, World.records, hlogger] using hlogged

theorem Under.sayElsewhere {logger : String}
    (h : "release_orchestrator." ++ logger ≠ sessionLogger) (level : Level) (message : String)
    (extra : Members) (traceback : Bool) :
    Obeys (Under s tag) (Session.sayElsewhere logger level message extra traceback) := by
  intro w
  unfold Session.sayElsewhere
  split
  · next record hrecord =>
    have hlogger := (record_of_make? hrecord).1
    refine .noted w none rfl ?_
    simp [World.said, World.records, hlogger, h]
  · exact .silent id rfl rfl

/-- The runner and the hooks never ask for a step. -/
theorem Under.hookLaw : HookLaw (Under s tag) where
  toLaw := Under.law
  logs h _ _ _ _ := .say (s.own _ h)
  named w _ := .noted w none rfl rfl
  process w _ := .noted w none rfl rfl

theorem Under.tellLaw : TellLaw (Under s tag) := Under.hookLaw.tellLaw

theorem Under.frameLaw : FrameLaw (Under s none) where
  toLogLaw := Under.hookLaw.toLogLaw
  mark h := Under.mark h
  hooks := Under.hookLaw.runHooks

theorem Under.report (setup : Setup) : Obeys (Under s tag) (Session.report setup) :=
  obeys_report Under.law (fun _ _ => .silent id rfl rfl)
    (Under.sayElsewhere (by decide)) setup

/-- Closing the listeners adds nothing to the log of the session. -/
theorem Under.closingLaw (hclose : ∀ {r : Roster}, s.calm r → s.calm r.close)
    (hpolicy : ∀ {r : Roster}, s.calm r → ∀ name tolerant, s.calm (r.setPolicy name tolerant)) :
    ClosingLaw (Under s tag) where
  toLaw := Under.law
  closed _ := .silent hclose rfl rfl
  called w id name := .noted w none rfl rfl
  raised w f := .noted w _ rfl rfl
  policy _ name tolerant := .silent (hpolicy · name tolerant) rfl rfl
  warned := Under.sayElsewhere (by decide)

end

/-! ## Scripts -/

/-- The script only holds actions that are allowed. -/
def Allows (allowed : Action → Prop) (script : Script) : Prop :=
  ∀ entry ∈ script, ∀ action ∈ entry.2, allowed action

/-- Every listener that may be called only does what is allowed: those that are registered, and
those that may be registered once more under their names. -/
def Roster.Allows (allowed : Action → Prop) (r : Roster) : Prop :=
  ∀ id listener, r.made[id]? = some listener → id ∈ r.order ∨ allowed (.enrol listener.name) →
    Session.Allows allowed listener.script

/-- Scripts may log and trace what they hold, as long as all listeners are allowed what they do. -/
def Scene.ofScripts (allowed : Action → Prop) : Scene where
  asked remark := ¬remark.GivesStep ∨
    remark.traceback = false ∧
      allowed (.log remark.level remark.message remark.values remark.extra)
  calm := Roster.Allows allowed
  own _ := .inl

/-- No action that is allowed sets or takes off the tag, and the listeners that are registered on
the way are allowed what they do. -/
structure Untagging (allowed : Action → Prop) : Prop where
  step : ∀ name, ¬allowed (.step name)
  reset : ¬allowed .reset
  registered : ∀ {name : String} {tolerant : Bool} {properties : Members} {script : Script},
    allowed (.register name tolerant properties script) → Allows allowed script

section
variable {allowed : Action → Prop}

theorem Roster.Allows.close {r : Roster} (h : r.Allows allowed) : r.close.Allows allowed := h

private theorem of_getElem?_concat {made : List Listener} {listener other : Listener} {id : Nat}
    (h : (made ++ [listener])[id]? = some other) : made[id]? = some other ∨ other = listener := by
  rcases lt_or_ge id made.length with hlt | hge
  · exact .inl (List.getElem?_append_left hlt ▸ h)
  · rw [List.getElem?_append_right hge] at h
    exact .inr (List.mem_singleton.mp (List.mem_of_getElem? h))

theorem Roster.Allows.make {r : Roster} (h : r.Allows allowed) {listener : Listener}
    (hlistener : Session.Allows allowed listener.script) : (r.make listener).Allows allowed := by
  intro id other hmade hid
  rcases of_getElem?_concat hmade with hold | rfl
  · exact h id other hold hid
  · exact hlistener

theorem Roster.Allows.enlist {r : Roster} (h : r.Allows allowed) {listener : Listener}
    (hlistener : Session.Allows allowed listener.script) : (r.enlist listener).Allows allowed := by
  intro id other hmade hid
  rcases of_getElem?_concat hmade with hold | rfl
  · refine h id other hold (hid.imp_left fun hid => ?_)
    rcases List.mem_append.mp hid with hid | hid
    · exact hid
    · have hlt := (List.getElem?_eq_some_iff.mp hold).1
      exact absurd (List.mem_singleton.mp hid) hlt.ne
  · exact hlistener

/-- The listener that is registered once more is the last of its name. -/
theorem Roster.Allows.enrol {r : Roster} (h : r.Allows allowed) {name : String}
    (hname : allowed (.enrol name)) : (r.enrol name).Allows allowed := by
  intro id listener hmade hid
  refine h id listener hmade ?_
  rcases hid with hid | hallowed
  · rcases List.mem_append.mp hid with hid | hid
    · exact .inl hid
    · have hlast := List.find?_some (Option.mem_toList.mp hid)
      obtain ⟨other, hother, hsame⟩ := (Option.any_eq_true _ _).mp hlast
      have heq : other = listener := Option.some.inj (hother.symm.trans hmade)
      rw [← heq, beq_iff_eq.mp hsame]
      exact .inr hname
  · exact .inr hallowed

theorem Roster.Allows.setPolicy {r : Roster} (h : r.Allows allowed) (name : String)
    (tolerant : Bool) : (r.setPolicy name tolerant).Allows allowed := by
  intro id listener hmade hid
  have hsame := r.map_setPolicy (g := fun listener => (listener.name, listener.script))
    (fun _ _ => rfl) name tolerant
  have hat := congrArg (·[id]?) hsame
  simp only [List.getElem?_map, hmade, Option.map_some] at hat
  obtain ⟨other, hother, heq⟩ := Option.map_eq_some_iff.mp hat.symm
  rw [r.setPolicy_order name tolerant] at hid
  rw [← (Prod.mk.inj heq).2]
  exact h id other hother ((Prod.mk.inj heq).1 ▸ hid)

theorem Roster.Allows.of_at? {r : Roster} (h : r.Allows allowed) {place id : Nat}
    {listener : Listener} (hat : r.at? place = some (id, listener)) :
    Session.Allows allowed listener.script := by
  obtain ⟨other, hplace, hmade⟩ := Option.bind_eq_some_iff.mp hat
  obtain ⟨found, hfound, heq⟩ := Option.map_eq_some_iff.mp hmade
  cases heq
  exact h id listener hfound (.inl (List.mem_of_getElem? hplace))

variable {tag : Option String}

/-- Closing the listeners leaves them what they do. -/
theorem Under.scriptClosing : ClosingLaw (Under (Scene.ofScripts allowed) tag) :=
  Under.closingLaw Roster.Allows.close Roster.Allows.setPolicy

/-- A listener that is registered on the way is one of those that may be called from then on. -/
theorem Under.enlist {listener : Listener} (hlistener : Session.Allows allowed listener.script) :
    Obeys (Under (Scene.ofScripts allowed) tag) (Session.enlist listener) := by
  intro w
  cases hclosed : w.roster.closed with
  | false =>
    rw [exec_enlist_of_open listener hclosed]
    exact .silent (·.enlist hlistener) rfl rfl
  | true =>
    rw [exec_enlist_of_closed listener hclosed]
    exact .silent (·.make hlistener) rfl rfl

/-- A listener that is registered once more is one of those that may be called already. -/
theorem Under.enrol {name : String} (hname : allowed (.enrol name)) :
    Obeys (Under (Scene.ofScripts allowed) tag) (Session.enrol name) := by
  intro w
  cases hclosed : w.roster.closed with
  | false =>
    rw [exec_enrol_of_open name hclosed]
    exact .silent (·.enrol hname) rfl rfl
  | true =>
    rw [exec_enrol_of_closed name hclosed]
    exact .silent id rfl rfl

section
variable (h : Untagging allowed)
include h

theorem Under.act {fire : Event → Run Bool}
    (hfire : ∀ event, Obeys (Under (Scene.ofScripts allowed) tag) (fire event)) {action : Action}
    (haction : allowed action) :
    Obeys (Under (Scene.ofScripts allowed) tag) (Session.act fire action) := by
  cases action with
  | raise failure => exact fun w => .noted w _ rfl rfl
  | log level message values extra => exact .say (.inr ⟨rfl, haction⟩)
  | trace failure => exact Under.hookLaw.trace failure
  | step name => exact absurd haction (h.step name)
  | reset => exact absurd haction h.reset
  | closeLog => exact fun _ => .silent id rfl rfl
  | register name tolerant properties script => exact Under.enlist (h.registered haction)
  | enrol name => exact Under.enrol haction
  | cleanup => exact Under.scriptClosing.cleanup
  | policy name tolerant => exact fun w => Under.scriptClosing.policy w name tolerant
  | dryRun value => exact fun _ => .silent id rfl rfl
  | filter filter name => exact fun _ => .silent id rfl rfl
  | fire event => exact .bind Under.law (hfire event) fun _ w => .noted w none rfl rfl

theorem Under.actions {fire : Event → Run Bool}
    (hfire : ∀ event, Obeys (Under (Scene.ofScripts allowed) tag) (fire event))
    {actions : List Action} (hactions : ∀ action ∈ actions, allowed action) :
    Obeys (Under (Scene.ofScripts allowed) tag) (actions.forM (Session.act fire)) :=
  .forM Under.law fun action haction => Under.act h hfire (hactions action haction)

/-- A listener that is called is one of those that are allowed what they do. -/
theorem Under.deliveryLaw : DeliveryLaw (Under (Scene.ofScripts allowed) tag) where
  toLaw := Under.law
  endless w := .noted w _ rfl rfl
  event w _ hcalm htag := (Under.noted (s := Scene.ofScripts allowed) _ none rfl rfl) hcalm htag
  called hfire key w _ id listener hat hcalm htag := by
    have hactions : Obeys (Under (Scene.ofScripts allowed) tag)
        ((listener.actions key).forM (Session.act _)) :=
      Under.actions h hfire (Listener.forall_actions (hcalm.of_at? hat) key)
    exact Under.law.trans (.noted w none rfl rfl) (hactions _) hcalm htag

theorem Under.invoke {item : Item}
    (hitem : ∀ handler, item.handler = some handler → ∀ action ∈ handler.actions, allowed action) :
    Obeys (Under (Scene.ofScripts allowed) tag) item.invoke := by
  unfold Item.invoke
  split
  · next handler hhandler =>
    exact .bind Under.law (fun w => .noted w none rfl rfl) fun _ =>
      Under.actions h (Under.deliveryLaw h).fired (hitem handler hhandler)
  · exact .say (.inl (by simp [Remark.GivesStep]))

end

end

end ReleaseRunner.Session
