import ReleaseRunner.Proofs.Session.Lifecycle
import ReleaseRunner.Proofs.Session.Remarks

/-!
# The tags of a run

The runner names each step to the log of the session before it marks the event in front of the step,
and takes the name off before it marks anything else. So the acts in the journal tell the tag of
every record as long as no script sets one: it is the step that the last act before the record
belongs to, or none (`World.tagAfter`). The main statement says this of every run
(`execute_tagged`), and that whatever scripts do with the tag, no record from the end of the session
on carries one.

What begins with a mark does so whatever was marked before it, which is how the parts of a run are
put together (`Marked`, `Bare`).
-/

namespace ReleaseRunner.Session

open Config Log

variable {α β : Type}

/-! ## Records by what stands before them -/

/-- The tag that entries leave behind: the step that the last act among them belongs to. -/
def World.tagAfter (start : Option String) (entries : List Entry) : Option String :=
  match (World.acts entries).getLast? with
  | some act => act.tag
  | none => start

/-- All records of the session's logger are as they should be after what stands before them. -/
def World.EachSaid (p : List Entry → Record → Prop) (entries : List Entry) : Prop :=
  ∀ before record reach after, entries = before ++ .record record reach :: after →
    record.logger = sessionLogger → p before record

namespace World

theorem tagAfter_append (start : Option String) (a b : List Entry) :
    tagAfter start (a ++ b) = tagAfter (tagAfter start a) b := by
  unfold tagAfter
  rw [acts_append, List.getLast?_append]
  cases (acts b).getLast? <;> rfl

theorem tagAfter_of_forall {tag : Option String} {entries : List Entry}
    (h : ∀ act ∈ acts entries, act.tag = tag) : tagAfter tag entries = tag := by
  unfold tagAfter
  cases hlast : (acts entries).getLast? with
  | none => rfl
  | some act => exact h act (List.mem_of_getLast? hlast)

theorem EachSaid.append {p : List Entry → Record → Prop} {a b : List Entry} (ha : EachSaid p a)
    (hb : EachSaid (fun before => p (a ++ before)) b) : EachSaid p (a ++ b) := by
  intro before record reach after heq hlogger
  -- the record stands in the second part, first in it, or in the first part
  rcases List.append_eq_append_iff.mp heq with ⟨c, rfl, hsecond⟩ | ⟨c, hfirst, hrest⟩
  · exact hb c record reach after hsecond hlogger
  · cases c with
    | nil =>
      have hstart := hb [] record reach after hrest.symm hlogger
      rw [List.append_nil] at hfirst hstart
      rwa [← hfirst]
    | cons entry c =>
      obtain ⟨rfl, -⟩ := List.cons.inj hrest
      exact ha before record reach c hfirst hlogger

theorem EachSaid.of_forall {p : List Entry → Record → Prop} {entries : List Entry}
    (h : ∀ before after, entries = before ++ after → ∀ record ∈ said entries, p before record) :
    EachSaid p entries := by
  intro before record reach after heq hlogger
  have hmem : .record record reach ∈ entries := by
    rw [heq]
    exact List.mem_append_right _ List.mem_cons_self
  exact h before _ heq record (mem_said hmem hlogger)

end World

/-! ## Exact tags -/

/-- The entries that are added have the tags that the acts among them tell. -/
def Exact (asked : Remark → Prop) (start : Option String) (u v : World) : Prop :=
  ∃ new, v.journal = u.journal ++ new ∧
    World.EachSaid (fun before => Logged asked (World.tagAfter start before)) new

/-- The tags are exact from a tag on that the log has. -/
def Begun (s : Scene) (tag : Option String) (u : World) (_ : Option Failure) (v : World) : Prop :=
  s.calm u.roster → u.log.step = tag → s.calm v.roster ∧ Exact s.asked tag u v

/-- The tags are exact whatever was marked before. -/
def Marked (s : Scene) (u : World) (_ : Option Failure) (v : World) : Prop :=
  s.calm u.roster → s.calm v.roster ∧ ∀ start, Exact s.asked start u v

/-- The tags are exact whatever was marked before, as long as the log has none, and it has none
after that either. -/
def Bare (s : Scene) (u : World) (_ : Option Failure) (v : World) : Prop :=
  s.calm u.roster → u.log.step = none →
    s.calm v.roster ∧ v.log.step = none ∧ ∀ start, Exact s.asked start u v

section
variable {asked : Remark → Prop} {start : Option String}

theorem Exact.silent {u v : World} (h : v.journal = u.journal) : Exact asked start u v :=
  ⟨[], by rw [h, List.append_nil], .of_forall fun _ _ _ _ hrecord => by
    simp [World.said, World.records] at hrecord⟩

theorem Exact.trans {u v w : World} (h : Exact asked start u v)
    (h' : ∀ start, Exact asked start v w) : Exact asked start u w := by
  obtain ⟨new, hnew, hexact⟩ := h
  obtain ⟨new', hnew', hexact'⟩ := h' (World.tagAfter start new)
  refine ⟨new ++ new', by rw [hnew', hnew, List.append_assoc], hexact.append ?_⟩
  simpa only [World.tagAfter_append] using hexact'

/-- A mark says which step it belongs to, so nothing before it matters. -/
theorem Exact.of_mark {u v : World} (act : Act)
    (h : Exact asked act.tag (u.noted (.act act)) v) : Exact asked start u v := by
  obtain ⟨new, hnew, hexact⟩ := h
  refine ⟨.act act :: new, by rw [hnew]; simp [World.noted], ?_⟩
  have hmark : World.EachSaid (fun before => Logged asked (World.tagAfter start before))
      [.act act] := .of_forall fun _ _ _ _ hrecord => by
    simp [World.said, World.records] at hrecord
  have htag : World.tagAfter start [.act act] = act.tag := rfl
  refine hmark.append ?_
  simpa only [World.tagAfter_append, htag] using hexact

variable {s : Scene} {tag : Option String}

theorem exact_of_entries {new : List Entry} (hacts : ∀ act ∈ World.acts new, act.tag = tag)
    (hsaid : ∀ record ∈ World.said new, Logged asked tag record) :
    World.EachSaid (fun before => Logged asked (World.tagAfter tag before)) new := by
  refine .of_forall fun before after heq record hrecord => ?_
  have hbefore : ∀ act ∈ World.acts before, act.tag = tag := fun act hact => hacts act <| by
    rw [heq, World.acts_append]
    exact List.mem_append_left _ hact
  rw [World.tagAfter_of_forall hbefore]
  exact hsaid record hrecord

theorem Under.begun {u v : World} {e : Option Failure} (h : Under s tag u e v) :
    Begun s tag u e v := by
  intro hcalm htag
  obtain ⟨hcalm, -, new, hnew, hacts, hsaid⟩ := h hcalm htag
  exact ⟨hcalm, new, hnew, exact_of_entries hacts hsaid⟩

theorem Under.begun_trans {u v w : World} {e : Option Failure} (h : Under s tag u none v)
    (h' : Begun s tag v e w) : Begun s tag u e w := by
  intro hcalm htag
  obtain ⟨hcalm, htag, new, hnew, hacts, hsaid⟩ := h hcalm htag
  obtain ⟨hcalm, new', hnew', hexact'⟩ := h' hcalm htag
  refine ⟨hcalm, new ++ new', by rw [hnew', hnew, List.append_assoc],
    (exact_of_entries hacts hsaid).append ?_⟩
  simpa only [World.tagAfter_append, World.tagAfter_of_forall hacts] using hexact'

theorem Begun.bind {x : Run α} {f : α → Run β} (hx : Obeys (Under s tag) x)
    (hf : ∀ a, Obeys (Begun s tag) (f a)) : Obeys (Begun s tag) (x >>= f) :=
  .chain Under.begun Under.begun_trans hx hf

theorem Marked.law : Law (Marked s) where
  refl _ hcalm := ⟨hcalm, fun _ => .silent rfl⟩
  fail _ _ _ hcalm := ⟨hcalm, fun _ => .silent rfl⟩
  trans h h' hcalm := by
    obtain ⟨hcalm, hexact⟩ := h hcalm
    obtain ⟨hcalm, hexact'⟩ := h' hcalm
    exact ⟨hcalm, fun start => (hexact start).trans hexact'⟩
  recover h _ := h

theorem Marked.begun {x : Run α} (h : Obeys (Marked s) x) : Obeys (Begun s tag) x :=
  fun w hcalm _ => (h w hcalm).imp_right fun hexact => hexact tag

/-- What is named and marked at once is exact from there on. -/
theorem Marked.of_named (act : Act) {x : Run α} (h : Obeys (Begun s act.tag) x) :
    Obeys (Marked s) (do setStep act.tag; mark act; x) := by
  intro w hcalm
  let named : World := { w with log := { w.log with step := act.tag } }
  have hexec : exec (do setStep act.tag; mark act; x) w = exec x (named.noted (.act act)) := by
    unfold setStep mark
    rw [exec_bind_ok (exec_modify _ _), exec_bind_ok (exec_note _ _)]
  rw [hexec]
  exact (h (named.noted (.act act)) hcalm rfl).imp_right fun hexact _ => .of_mark act hexact

theorem Bare.trans {u v w : World} {e e' e'' : Option Failure} (h : Bare s u e v)
    (h' : Bare s v e' w) : Bare s u e'' w := by
  intro hcalm htag
  obtain ⟨hcalm, htag, hexact⟩ := h hcalm htag
  obtain ⟨hcalm, htag, hexact'⟩ := h' hcalm htag
  exact ⟨hcalm, htag, fun start => (hexact start).trans hexact'⟩

theorem Bare.law : Law (Bare s) where
  refl _ hcalm htag := ⟨hcalm, htag, fun _ => .silent rfl⟩
  fail _ _ _ hcalm htag := ⟨hcalm, htag, fun _ => .silent rfl⟩
  trans h h' := h.trans h'
  recover h _ := h

theorem Bare.of_mark {act : Act} {x : Run α} (hact : act.tag = none)
    (h : Obeys (Under s none) x) : Obeys (Bare s) (mark act >>= fun _ => x) := by
  intro w hcalm htag
  unfold mark
  rw [exec_bind_ok (exec_note _ _)]
  have hx := h (w.noted (.act act))
  obtain ⟨hcalm', htag', -⟩ := hx hcalm htag
  refine ⟨hcalm', htag', fun _ => .of_mark act ?_⟩
  rw [hact]
  exact (hx.begun hcalm htag).2

/-- The tags are exact in a log that has none at first and none in the end. -/
def Untagged (s : Scene) (u : World) (_ : Option Failure) (v : World) : Prop :=
  s.calm u.roster → u.log.step = none →
    s.calm v.roster ∧ v.log.step = none ∧ Exact s.asked none u v

theorem Under.untagged {u v : World} {e : Option Failure} (h : Under s none u e v) :
    Untagged s u e v :=
  fun hcalm htag => ⟨(h hcalm htag).1, (h hcalm htag).2.1, (h.begun hcalm htag).2⟩

theorem Untagged.trans {u v w : World} {e e' e'' : Option Failure} (h : Untagged s u e v)
    (h' : Bare s v e' w) : Untagged s u e'' w := by
  intro hcalm htag
  obtain ⟨hcalm, htag, hexact⟩ := h hcalm htag
  obtain ⟨hcalm, htag, hexact'⟩ := h' hcalm htag
  exact ⟨hcalm, htag, hexact.trans hexact'⟩

theorem Untagged.bind {x : Run α} {f : α → Run β} (hx : Obeys (Under s none) x)
    (hf : ∀ a, Obeys (Bare s) (f a)) : Obeys (Untagged s) (x >>= f) :=
  .chain Under.untagged (fun h h' => h.untagged.trans h') hx hf

end

/-! ## The end of a run -/

section
variable {s : Scene} (setup : Setup) (runner : HookRunner)

/-- The report is written and the outcome is told without a tag, whatever the tag was before. -/
theorem under_ending (start : Instant) (setbacks : Setbacks) (w : World) :
    Under s none { w.stamped with log := { w.log with step := none } } none
      (exec (ending setup runner start setbacks) w).2 := by
  have hlast (stop : Instant) : Obeys (Under s none) (do
      mark .report
      report setup
      modify fun w => { w with outcome := some setbacks.resolve }
      closeUp runner setbacks.resolve (durationText start stop)) :=
    .bind Under.law (Under.mark rfl) fun _ => .bind Under.law (Under.report setup) fun _ =>
      .bind Under.law (fun _ => .silent id rfl rfl) fun _ => Under.frameLaw.closeUp runner _ _
  have hexec : exec (ending setup runner start setbacks) w = exec (do
      mark .report
      report setup
      modify fun w => { w with outcome := some setbacks.resolve }
      closeUp runner setbacks.resolve (durationText start w.clock.next))
      { w.stamped with log := { w.log with step := none } } := by
    unfold ending reportOutcome
    rw [exec_bind_ok (exec_stampEnd w)]
    simp only [bind_assoc, pure_bind]
    rfl
  rw [hexec]
  exact hlast _ _

theorem bare_ending (start : Instant) (setbacks : Setbacks) :
    Obeys (Bare s) (ending setup runner start setbacks) := by
  intro w hcalm _
  have h := under_ending (s := s) setup runner start setbacks w
  obtain ⟨hcalm', htag', -⟩ := h hcalm rfl
  exact ⟨hcalm', htag', fun _ => .of_mark .stamp (h.begun hcalm rfl).2⟩

/-- The listeners and the log are closed without a tag. -/
theorem under_sealed (law : ClosingLaw (Under s none)) (w : World) :
    Under s none w none (exec cleanup (w.noted (.act .cleanup))).2.sealed := by
  have hcleanup : Obeys (Under s none) (do mark .cleanup; cleanup) :=
    .bind Under.law (Under.mark rfl) fun _ => law.cleanup
  have hclose : Obeys (Under s none) (do mark .closeLog; closeLog) :=
    .bind Under.law (Under.mark rfl) fun _ _ => .silent id rfl rfl
  exact (hcleanup w).trans (hclose _)

theorem bare_sealed (law : ClosingLaw (Under s none)) (w : World) :
    Bare s w none (exec cleanup (w.noted (.act .cleanup))).2.sealed := by
  have hcleanup : Obeys (Bare s) (do mark .cleanup; cleanup) := .of_mark rfl law.cleanup
  have hclose : Obeys (Bare s) (do mark .closeLog; closeLog) :=
    .of_mark rfl fun _ => .silent id rfl rfl
  exact (hcleanup w).trans (hclose _)

end

/-! ## The run with scripts that leave the tag alone -/

section
variable {allowed : Action → Prop} (h : Untagging allowed) {items : List Item}
  (hitems : ∀ item ∈ items, ∀ handler, item.handler = some handler →
    ∀ action ∈ handler.actions, allowed action)
include h hitems

/-- Every item is named before it is marked, so its records have its tag. -/
theorem marked_runItems (setbacks : Setbacks) :
    Obeys (Marked (Scene.ofScripts allowed)) (runItems items setbacks) := by
  induction items generalizing setbacks with
  | nil => exact .pure Marked.law _
  | cons item items ih =>
    rw [List.forall_mem_cons] at hitems
    obtain ⟨hitem, hitems⟩ := hitems
    have hfire (event : Event) :
        Obeys (Under (Scene.ofScripts allowed) (some item.stage.name)) (fire event) :=
      (Under.deliveryLaw h).fire event
    have hhalt (delivery : Delivery) :
        Obeys (Under (Scene.ofScripts allowed) (some item.stage.name)) (haltOf delivery) :=
      Under.tellLaw.haltOf delivery
    have hsucceeded : Obeys (Under (Scene.ofScripts allowed) (some item.stage.name))
        (fireSucceeded item.stage.name) :=
      .bind Under.law (Under.mark rfl) fun _ => .bind Under.law (hfire _) fun _ => hhalt _
    have hfailed (cause : Failure) : Obeys (Under (Scene.ofScripts allowed) (some item.stage.name))
        (fireFailed item.stage.name cause) :=
      .bind Under.law (Under.mark rfl) fun _ => .bind Under.law (hfire _) fun _ =>
        .bind Under.law (hhalt _) fun _ => .pure Under.law _
    -- the mark of the event in front of the item comes right after its name
    unfold runItems fireBefore
    simp only [bind_assoc]
    refine Marked.of_named (.before item.stage.name) ?_
    refine Begun.bind (hfire _) fun delivery => Begun.bind (hhalt delivery) fun before => ?_
    cases before with
    | some halt => exact Marked.begun (.pure Marked.law _)
    | none =>
      refine Begun.bind (Under.mark rfl) fun _ =>
        Begun.bind (.attempt Under.law (Under.invoke h hitem)) fun result => ?_
      cases result with
      | ok =>
        refine Begun.bind hsucceeded fun succeeded => ?_
        cases succeeded with
        | some halt => exact Marked.begun (.pure Marked.law _)
        | none => exact Marked.begun (ih hitems setbacks)
      | error failure =>
        refine Begun.bind (hfailed failure) fun failed => ?_
        split
        · exact Marked.begun (.pure Marked.law _)
        · exact Marked.begun (ih hitems _)
        · exact Marked.begun (.pure Marked.law _)

/-- The tag is taken off after the items in any case. -/
theorem bare_runSteps (setbacks : Setbacks) :
    Obeys (Bare (Scene.ofScripts allowed)) (runSteps items setbacks) := by
  have hitems : Obeys (Bare (Scene.ofScripts allowed))
      (ensuring (runItems items setbacks) (setStep none)) := by
    intro w hcalm _
    have hrun := marked_runItems h hitems setbacks w hcalm
    have hexec : (exec (ensuring (runItems items setbacks) (setStep none)) w).2 =
        (exec (setStep none) (exec (runItems items setbacks) w).2).2 := rfl
    rw [hexec]
    exact ⟨hrun.1, rfl, hrun.2⟩
  exact .bind Bare.law hitems fun _ =>
    .of_mark rfl (Under.frameLaw.finish (Under.deliveryLaw h).fireEnd _)

theorem bare_drive (runner : HookRunner) :
    Obeys (Bare (Scene.ofScripts allowed)) (drive runner items) := by
  have hstart : Obeys (Bare (Scene.ofScripts allowed)) (startSession runner) :=
    .of_mark rfl (Under.frameLaw.opening (Under.deliveryLaw h).fireStart runner)
  refine .bind Bare.law hstart fun setbacks => ?_
  split
  · exact .pure Bare.law _
  · exact bare_runSteps h hitems setbacks

theorem untagged_execute (setup : Setup) (runner : HookRunner) (w : World) :
    Untagged (Scene.ofScripts allowed) w none (exec (execute setup runner items) w).2 := by
  have hsession : Untagged (Scene.ofScripts allowed) w none
      (exec (runSession setup runner items) w).2 := by
    rw [exec_runSession]
    exact Untagged.bind Under.tellLaw.announce (fun _ => .bind Bare.law (bare_drive h hitems runner)
      fun setbacks => bare_ending setup runner _ setbacks) w.opened
  rw [exec_execute_world]
  exact hsession.trans (bare_sealed Under.scriptClosing _)

end

/-! ## After the end was stamped -/

/-- The journal grows, and the end of the session is not stamped. -/
def Unstamped (u : World) (_ : Option Failure) (v : World) : Prop :=
  ∃ new, v.journal = u.journal ++ new ∧ .stamp ∉ World.acts new

/-- Nobody but the runner gives a step, if anybody does. -/
def Scene.bare : Scene where
  asked remark := ¬remark.GivesStep
  calm _ := True
  own _ h := h

/-- No record from the stamp on carries a step. -/
def Stepless (entries : List Entry) : Prop :=
  World.EachSaid
    (fun before record => .stamp ∈ World.acts before → "step" ∉ record.extra.map Prod.fst) entries

/-- No record from the stamp on carries a step, and after the stamp the log has no tag. -/
def Late (u v : World) : Prop :=
  ∃ new, v.journal = u.journal ++ new ∧ Stepless new ∧
    (.stamp ∈ World.acts new → v.log.step = none)

theorem Unstamped.of_actless {u v : World} {e : Option Failure} (h : Passes u e v)
    (hacts : Actless u e v) : Unstamped u e v := by
  obtain ⟨new, hnew, hnone⟩ := exists_actless h hacts
  exact ⟨new, hnew, by rw [hnone]; exact List.not_mem_nil⟩

theorem Unstamped.trans {u v w : World} {e e' e'' : Option Failure} (h : Unstamped u e v)
    (h' : Unstamped v e' w) : Unstamped u e'' w := by
  obtain ⟨new, hnew, hnone⟩ := h
  obtain ⟨new', hnew', hnone'⟩ := h'
  refine ⟨new ++ new', by rw [hnew', hnew, List.append_assoc], ?_⟩
  rw [World.acts_append, List.mem_append, not_or]
  exact ⟨hnone, hnone'⟩

theorem Unstamped.law : PluginLaw Unstamped where
  refl _ := ⟨[], (List.append_nil _).symm, List.not_mem_nil⟩
  fail _ _ _ := ⟨[], (List.append_nil _).symm, List.not_mem_nil⟩
  trans h h' := h.trans h'
  recover h _ := h
  step h := .of_actless (Passes.pluginLaw.step h) (Actless.law.step h)
  heard w _ h := .of_actless (Passes.pluginLaw.heard w h) (Actless.law.heard w h)
  event w members := .of_actless (Passes.pluginLaw.event w members) (Actless.law.event w members)
  process w start := .of_actless (Passes.pluginLaw.process w start) (Actless.law.process w start)

theorem Unstamped.mark {act : Act} (h : act ≠ .stamp) : Obeys Unstamped (mark act) :=
  fun _ => ⟨[.act act], rfl, by simpa [World.acts] using h.symm⟩

theorem Unstamped.courseLaw : CourseLaw Unstamped :=
  .ofPlugin Unstamped.law (fun hearly => Unstamped.mark (by rintro rfl; cases hearly))
    (fun _ => Unstamped.mark (by simp)) fun h => h

theorem Stepless.of_unstamped {new : List Entry} (h : .stamp ∉ World.acts new) :
    Stepless new := by
  refine .of_forall fun before after heq _ _ hstamp => absurd ?_ h
  rw [heq, World.acts_append]
  exact List.mem_append_left _ hstamp

theorem Stepless.append {a b : List Entry} (ha : Stepless a)
    (hb : ∀ record ∈ World.said b, "step" ∉ record.extra.map Prod.fst) : Stepless (a ++ b) :=
  World.EachSaid.append ha (.of_forall fun _ _ _ record hrecord _ => hb record hrecord)

namespace Late

variable {u v w : World}

theorem of_unstamped (h : Unstamped u none v) : Late u v := by
  obtain ⟨new, hnew, hnone⟩ := h
  exact ⟨new, hnew, .of_unstamped hnone, fun hstamp => absurd hstamp hnone⟩

theorem stamped (h : Unstamped u none v) :
    Late u { v.stamped with log := { v.log with step := none } } := by
  obtain ⟨new, hnew, hnone⟩ := h
  refine ⟨new ++ [.act .stamp], by simp [World.stamped, World.noted, hnew], ?_, fun _ => rfl⟩
  exact (Stepless.of_unstamped hnone).append (by simp [World.said, World.records])

/-- What is logged without a tag carries no step. -/
theorem append (h : Late u v) (htag : v.log.step = none) (h' : Under .bare none v none w) :
    Late u w := by
  obtain ⟨new, hnew, hstepless, -⟩ := h
  obtain ⟨-, htag', new', hnew', -, hsaid⟩ := h' trivial htag
  exact ⟨new ++ new', by rw [hnew', hnew, List.append_assoc],
    hstepless.append fun record hrecord => (hsaid record hrecord).stepless, fun _ => htag'⟩

/-- An abort may leave a tag behind, but then the end was not stamped and never is. -/
theorem close (h : Late u v) (hclosed : Unstamped v none w) (hbare : Under .bare none v none w) :
    Late u w := by
  by_cases htag : v.log.step = none
  · exact h.append htag hbare
  · obtain ⟨new, hnew, -, hlast⟩ := h
    have hsofar : Unstamped u none v := ⟨new, hnew, fun hstamp => htag (hlast hstamp)⟩
    exact .of_unstamped (hsofar.trans hclosed)

end Late

section
variable (setup : Setup) (runner : HookRunner) (items : List Item) (w : World)

theorem late_runSession : Late w (exec (runSession setup runner items) w).2 := by
  have hcourse : Obeys Unstamped (do announce; drive runner items) :=
    .bind Unstamped.law.toLaw Unstamped.courseLaw.announce fun _ =>
      Unstamped.courseLaw.drive runner items
  have hsplit : (do
        announce
        let setbacks ← drive runner items
        ending setup runner w.clock.next setbacks : Run Unit) =
      (do announce; drive runner items) >>= ending setup runner w.clock.next :=
    (bind_assoc _ _ _).symm
  have h := hcourse w.opened
  rw [exec_runSession, hsplit, exec_bind]
  rcases hr : exec (do announce; drive runner items) w.opened with ⟨f | setbacks, v⟩
  · rw [hr] at h
    exact .of_unstamped h
  · rw [hr] at h
    exact (Late.stamped h).append rfl (under_ending setup runner _ setbacks v)

theorem late_execute : Late w (exec (execute setup runner items) w).2 := by
  rw [exec_execute_world]
  refine (late_runSession setup runner items w).close ?_
    (under_sealed (Under.closingLaw (fun _ => trivial) fun _ _ _ => trivial) _)
  have hcleanup : Obeys Unstamped (do mark .cleanup; cleanup) :=
    .bind Unstamped.law.toLaw (Unstamped.mark (by simp)) fun _ w => Unstamped.law.step (.cleanup w)
  have hclose : Obeys Unstamped (do mark .closeLog; closeLog) :=
    .bind Unstamped.law.toLaw (Unstamped.mark (by simp)) fun _ w => Unstamped.law.step (.closeLog w)
  exact (hcleanup _).trans (hclose _)

end

/-! ## The run as a whole -/

/-- The action is one that a script of the run may perform: that of an item, of a registered
listener, or of one that such an action registers, whether it is new or is registered once more.
What a run never gets to may as well be left out of its scripts. -/
inductive Occurs (items : List Item) (r : Roster) : Action → Prop
  | performed {item : Item} {handler : Handler} {action : Action} (hitem : item ∈ items)
      (hhandler : item.handler = some handler) (haction : action ∈ handler.actions) :
      Occurs items r action
  | listened {id : Nat} {listener : Listener} {entry : String × List Action} {action : Action}
      (hid : id ∈ r.order) (hmade : r.made[id]? = some listener)
      (hentry : entry ∈ listener.script) (haction : action ∈ entry.2) : Occurs items r action
  | registered {name : String} {tolerant : Bool} {properties : Members} {script : Script}
      {entry : String × List Action} {action : Action}
      (h : Occurs items r (.register name tolerant properties script)) (hentry : entry ∈ script)
      (haction : action ∈ entry.2) : Occurs items r action
  | enrolled {id : Nat} {listener : Listener} {entry : String × List Action} {action : Action}
      (h : Occurs items r (.enrol listener.name)) (hmade : r.made[id]? = some listener)
      (hentry : entry ∈ listener.script) (haction : action ∈ entry.2) : Occurs items r action

/-- What the logger of the session may be asked: anything without a step of its own, and with one
what a script of the run asks it. -/
def Asked (items : List Item) (r : Roster) (remark : Remark) : Prop :=
  ¬remark.GivesStep ∨ remark.traceback = false ∧
    Occurs items r (.log remark.level remark.message remark.values remark.extra)

theorem Occurs.calm (items : List Item) (r : Roster) : r.Allows (Occurs items r) := by
  intro id listener hmade hid entry hentry action haction
  rcases hid with hid | hname
  · exact .listened hid hmade hentry haction
  · exact .enrolled hname hmade hentry haction

/-- The acts of a run are those of its items, one after the other, with others around them that
belong to no step. Where no script sets or takes off the tag, and there is none at first, every
record of the session's logger is tagged with the step that the last act before it belongs to, and
with none where that act belongs to none; a step that the caller gives stays. In every run, whatever
scripts do with the tag, the records after the end of the session carry none. -/
theorem execute_tagged (setup : Setup) (runner : HookRunner) (items : List Item) (w : World) :
    ∃ result v new, exec (execute setup runner items) w = (result, v) ∧
      v.journal = w.journal ++ new ∧ Spans items (World.acts new) ∧
      ((∀ name, ¬Occurs items w.roster (.step name)) → ¬Occurs items w.roster .reset →
        w.log.step = none →
        ∀ before record reach after, new = before ++ .record record reach :: after →
          record.logger = sessionLogger →
          Logged (Asked items w.roster) (World.tagAfter none before) record) ∧
      ∀ before record reach after, new = before ++ .record record reach :: after →
        record.logger = sessionLogger → .stamp ∈ World.acts before →
        "step" ∉ record.extra.map Prod.fst := by
  obtain ⟨new, hnew, hstepless, -⟩ := late_execute setup runner items w
  obtain ⟨t, ht, hspans⟩ := spans_execute setup runner items w
  rw [hnew, World.acts_append] at ht
  rw [← List.append_cancel_left ht] at hspans
  refine ⟨_, _, new, rfl, hnew, hspans, fun hstep hreset htag => ?_, hstepless⟩
  have huntagging : Untagging (Occurs items w.roster) :=
    ⟨hstep, hreset, fun h _ hentry _ haction => .registered h hentry haction⟩
  have hitems : ∀ item ∈ items, ∀ handler, item.handler = some handler →
      ∀ action ∈ handler.actions, Occurs items w.roster action :=
    fun item hitem handler hhandler action haction => .performed hitem hhandler haction
  obtain ⟨-, -, new', hnew', hexact⟩ :=
    untagged_execute huntagging hitems setup runner w (Occurs.calm items w.roster) htag
  -- both tell the entries that were added to the same journal
  rw [List.append_cancel_left (hnew.symm.trans hnew')]
  exact hexact

/-- The step that a record carries. -/
def stepText (record : Record) : Option String :=
  (Json.lookup record.extra "step").bind Json.text?

/-- A stage that is logged twice, the second time under another name. -/
def signing : Item :=
  ⟨.sign, some ⟨"sign", [.log .info "signed" [] [],
    .log .info "sealed" [] [("step", .text "seal")]]⟩⟩

/-- A listener that logs about every event. -/
def chatty : Listener := ⟨"chatty", true, [], [("*", [.log .info "heard" [] []])]⟩

/-- The records around the stage carry its name, but for the one that came with another, and those
about the session carry none. -/
theorem execute_tagged_signing :
    ∃ (setup : Setup) (runner : HookRunner) (w : World),
      w.roster.registered = [chatty] ∧ w.log.step = none ∧
      (∀ action, Occurs [signing] w.roster action →
        ∃ level message values extra, action = .log level message values extra) ∧
      ∃ result v, exec (execute setup runner [signing]) w = (result, v) ∧
        (∀ before record reach after, v.journal = before ++ .record record reach :: after →
          record.logger = sessionLogger →
          Logged (Asked [signing] w.roster) (World.tagAfter none before) record) ∧
        (World.said v.journal).map (fun record => (record.message, stepText record)) =
          [("dry-run set to False", none), ("heard", none), ("heard", some "sign"),
            ("signed", some "sign"), ("sealed", some "seal"), ("heard", some "sign"),
            ("heard", none), ("Release succeeded in 0.000s", none)] := by
  let setup : Setup := {
    model := ⟨⟨"demo", "1.0.0", "SEMVER"⟩, ⟨true, [], [], [], []⟩, []⟩
    settings := ⟨.info, ⟨.here, ["out"]⟩, false, ⟨.here, ["release.json"]⟩⟩ }
  let runner : HookRunner := ⟨setup.model.hooks, "linux"⟩
  let w : World := World.withListeners [chatty]
  have hlogs : ∀ action, Occurs [signing] w.roster action →
      ∃ level message values extra, action = .log level message values extra := by
    intro action h
    induction h with
    | performed hitem hhandler haction =>
      rw [List.mem_singleton.mp hitem] at hhandler
      cases hhandler
      rcases List.mem_cons.mp haction with rfl | haction
      · exact ⟨_, _, _, _, rfl⟩
      · exact ⟨_, _, _, _, List.mem_singleton.mp haction⟩
    | listened hid hmade hentry haction =>
      rw [show _ = 0 from List.mem_singleton.mp hid] at hmade
      cases hmade
      rw [List.mem_singleton.mp hentry] at haction
      exact ⟨_, _, _, _, List.mem_singleton.mp haction⟩
    | registered _ _ _ ih | enrolled _ _ _ _ ih =>
      obtain ⟨level, message, values, extra, h⟩ := ih
      cases h
  have hstep : ∀ name, ¬Occurs [signing] w.roster (.step name) := fun name h => by
    obtain ⟨level, message, values, extra, h⟩ := hlogs _ h
    cases h
  have hreset : ¬Occurs [signing] w.roster .reset := fun h => by
    obtain ⟨level, message, values, extra, h⟩ := hlogs _ h
    cases h
  have hsaid : (World.said (exec (execute setup runner [signing]) w).2.journal).map
      (fun record => (record.message, stepText record)) =
        [("dry-run set to False", none), ("heard", none), ("heard", some "sign"),
          ("signed", some "sign"), ("sealed", some "seal"), ("heard", some "sign"),
          ("heard", none), ("Release succeeded in 0.000s", none)] := by
    decide +kernel
  obtain ⟨result, v, new, hexec, hnew, -, htagged, -⟩ := execute_tagged setup runner [signing] w
  rw [hexec] at hsaid
  have hjournal : v.journal = new := hnew
  refine ⟨setup, runner, w, rfl, rfl, hlogs, result, v, hexec, ?_, hsaid⟩
  rw [hjournal]
  exact htagged hstep hreset rfl

end ReleaseRunner.Session
