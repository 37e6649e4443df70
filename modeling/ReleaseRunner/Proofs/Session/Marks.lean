import ReleaseRunner.Proofs.Session.Lifecycle

/-!
# The marks of a run

The acts that a run notes in the journal belong to the session at first, then to one item after the
other, and in the end to the session again. Each item begins with its event and gets as far as its
invocation and the event after it. This holds of every run, also of one that an abort ends anywhere
on the way (`spans_execute`).
-/

namespace ReleaseRunner.Session

open Config Log

variable {α β : Type}

/-- The act belongs to a step: it is one of those from the event in front of the step to the event
after it. -/
def Act.tag : Act → Option String
  | .before step => some step
  | .invoke step => some step
  | .failed step => some step
  | .succeeded step => some step
  | _ => none

/-- A law that holds of what the runner does for the session as a whole, apart from its events. -/
structure FrameLaw (P : World → Option Failure → World → Prop) : Prop extends LogLaw P where
  mark : ∀ {act : Act}, act.tag = none → Obeys P (Session.mark act)
  hooks : ∀ runner event, Obeys P (runHooks runner event)

section
variable {P : World → Option Failure → World → Prop} (law : FrameLaw P)
include law

theorem FrameLaw.attemptHooks (runner : HookRunner) (event : Event) :
    Obeys P (Session.attemptHooks runner event) :=
  law.tellLaw.attemptHooks (law.hooks runner event)

/-- What follows the mark of the hooks in front of the session. -/
theorem FrameLaw.opening (hstart : Obeys P fireStart) (runner : HookRunner) : Obeys P (do
    match ← Session.attemptHooks runner (.before sessionScope) with
    | some failure => return ({ beforeHook := some failure } : Setbacks)
    | none =>
      Session.mark .sessionStart
      return { startListener := ← haltOf (← fireStart) }) := by
  refine .bind law.toLaw (law.attemptHooks runner _) fun failure => ?_
  split
  · exact .pure law.toLaw _
  · exact .bind law.toLaw (law.mark rfl) fun _ => .bind law.toLaw hstart fun _ =>
      .bind law.toLaw (law.tellLaw.haltOf _) fun _ => .pure law.toLaw _

/-- What follows the mark of the end of the session. -/
theorem FrameLaw.finish (hend : Obeys P fireEnd) (setbacks : Setbacks) : Obeys P (do
    return { setbacks with endListener := ← haltOf (← fireEnd) }) :=
  .bind law.toLaw hend fun _ => .bind law.toLaw (law.tellLaw.haltOf _) fun _ => .pure law.toLaw _

theorem FrameLaw.closeUp (runner : HookRunner) (outcome : Outcome) (duration : String) :
    Obeys P (Session.closeUp runner outcome duration) := by
  have hhooks : Obeys P (runClosingHooks runner outcome) := by
    unfold runClosingHooks
    split
    · exact .pure law.toLaw _
    · exact .bind law.toLaw (law.mark rfl) fun _ =>
        .bind law.toLaw (law.attemptHooks runner _) fun _ => .pure law.toLaw _
  exact .bind law.toLaw hhooks fun _ => law.conclude _ _

end

/-- The acts over items, which may end anywhere. -/
inductive ItemActs : List Item → List Act → Prop
  | stopped (items : List Item) : ItemActs items []
  | begun (item : Item) (items : List Item) :
      ItemActs (item :: items) [.before item.stage.name]
  | invoked (item : Item) (items : List Item) :
      ItemActs (item :: items) [.before item.stage.name, .invoke item.stage.name]
  | succeeded {item : Item} {items : List Item} {t : List Act} (rest : ItemActs items t) :
      ItemActs (item :: items)
        (.before item.stage.name :: .invoke item.stage.name :: .succeeded item.stage.name :: t)
  | failed {item : Item} {items : List Item} {t : List Act} (rest : ItemActs items t) :
      ItemActs (item :: items)
        (.before item.stage.name :: .invoke item.stage.name :: .failed item.stage.name :: t)

/-- The acts belong to no step. -/
def Stepfree (t : List Act) : Prop := ∀ act ∈ t, act.tag = none

/-- The acts are those over items, with others around them that belong to no step. -/
def Spans (items : List Item) (t : List Act) : Prop :=
  ∃ first middle last, t = first ++ middle ++ last ∧ Stepfree first ∧ ItemActs items middle ∧
    Stepfree last

/-- The acts that are noted are as they should be. -/
def Adds (p : List Act → Prop) (u : World) (_ : Option Failure) (v : World) : Prop :=
  ∃ t, World.acts v.journal = World.acts u.journal ++ t ∧ p t

section
variable {p q : List Act → Prop}

theorem Adds.mono {u v : World} {e e' : Option Failure} (h : Adds p u e v)
    (hp : ∀ t, p t → q t) : Adds q u e' v := by
  obtain ⟨t, ht, hpt⟩ := h
  exact ⟨t, ht, hp t hpt⟩

theorem Adds.trans {r : List Act → Prop} {u v w : World} {e e' e'' : Option Failure}
    (h : Adds p u e v) (h' : Adds q v e' w) (hr : ∀ t t', p t → q t' → r (t ++ t')) :
    Adds r u e'' w := by
  obtain ⟨t, ht, hp⟩ := h
  obtain ⟨t', ht', hq⟩ := h'
  exact ⟨t ++ t', by rw [ht', ht, List.append_assoc], hr t t' hp hq⟩

theorem Adds.of_actless {u v : World} {e : Option Failure} (h : Actless u e v) (hp : p []) :
    Adds p u e v :=
  ⟨[], by rw [List.append_nil]; exact h, hp⟩

theorem Adds.pure (hp : p []) (a : α) : Obeys (Adds p) (pure a : Run α) :=
  fun w => .of_actless (Actless.law.refl w) hp

/-- What notes no act leaves it to what follows. -/
theorem Adds.actless_bind {x : Run α} {f : α → Run β} (hp : p []) (hx : Obeys Actless x)
    (hf : ∀ a, Obeys (Adds p) (f a)) : Obeys (Adds p) (x >>= f) := by
  refine .chain (fun h => .of_actless h hp) (fun h h' => ?_) hx hf
  obtain ⟨t, ht, hpt⟩ := h'
  exact ⟨t, by rw [ht, h], hpt⟩

theorem Adds.mark_bind (act : Act) {x : Run α} (hx : Obeys (Adds fun t => p (act :: t)) x) :
    Obeys (Adds p) (mark act >>= fun _ => x) := by
  intro w
  obtain ⟨t, ht, hpt⟩ := hx (w.noted (.act act))
  have hacts : World.acts (w.noted (.act act)).journal = World.acts w.journal ++ [act] := by
    unfold World.noted
    rw [World.acts_append]
    rfl
  refine ⟨act :: t, ?_, hpt⟩
  rw [hacts, List.append_assoc] at ht
  exact ht

end

/-! ## Acts of the session -/

theorem Stepfree.law : Law (Adds Stepfree) where
  refl w := .of_actless (Actless.law.refl w) (by simp [Stepfree])
  fail w f h := .of_actless (Actless.law.fail w f h) (by simp [Stepfree])
  trans h h' := h.trans h' fun t t' ht ht' => List.forall_mem_append.mpr ⟨ht, ht'⟩
  recover h _ := h

theorem Stepfree.of_actless {x : Run α} (h : Obeys Actless x) : Obeys (Adds Stepfree) x :=
  fun w => .of_actless (h w) (by simp [Stepfree])

theorem Stepfree.frameLaw : FrameLaw (Adds Stepfree) where
  toLaw := Stepfree.law
  logs _ _ _ _ _ := Stepfree.of_actless (Actless.law.say _ _ _ _ _)
  mark h _ := ⟨[_], World.acts_append _ _, by simpa [Stepfree] using h⟩
  hooks runner event := Stepfree.of_actless (Actless.law.runHooks runner event)

theorem stepfree_startSession (runner : HookRunner) :
    Obeys (Adds Stepfree) (startSession runner) :=
  .bind Stepfree.law (Stepfree.frameLaw.mark rfl) fun _ =>
    Stepfree.frameLaw.opening (Stepfree.of_actless Actless.law.deliveryLaw.fireStart) runner

theorem stepfree_ending (setup : Setup) (runner : HookRunner) (start : Instant)
    (setbacks : Setbacks) : Obeys (Adds Stepfree) (ending setup runner start setbacks) := by
  have hreport : Obeys (Adds Stepfree) (reportOutcome setup setbacks) :=
    .bind Stepfree.law (Stepfree.of_actless (Actless.law.setStep none)) fun _ =>
      .bind Stepfree.law (Stepfree.frameLaw.mark rfl) fun _ =>
      .bind Stepfree.law (Stepfree.of_actless (Actless.law.report setup)) fun _ =>
      .bind Stepfree.law (Stepfree.of_actless fun _ => rfl) fun _ => .pure Stepfree.law _
  have hstamp : Obeys (Adds Stepfree) stampEnd :=
    .bind Stepfree.law (Stepfree.frameLaw.mark rfl) fun _ => Stepfree.of_actless fun _ => rfl
  exact .bind Stepfree.law hstamp fun _ => .bind Stepfree.law hreport fun _ =>
    Stepfree.frameLaw.closeUp runner _ _

/-! ## Acts over items -/

theorem itemActs_runItems (items : List Item) (setbacks : Setbacks) :
    Obeys (Adds (ItemActs items)) (runItems items setbacks) := by
  induction items generalizing setbacks with
  | nil => exact Adds.pure (.stopped []) _
  | cons item items ih =>
    have hhalt (delivery : Delivery) : Obeys Actless (haltOf delivery) :=
      Actless.law.logLaw.tellLaw.haltOf delivery
    have hfire (event : Event) : Obeys Actless (fire event) := Actless.law.deliveryLaw.fire event
    -- after each mark the acts so far are a course that may end there
    unfold runItems fireBefore fireSucceeded fireFailed
    simp only [bind_assoc]
    refine Adds.actless_bind (.stopped _) (Actless.law.setStep _) fun _ => Adds.mark_bind _ ?_
    refine Adds.actless_bind (.begun item items) (hfire _) fun delivery =>
      Adds.actless_bind (.begun item items) (hhalt delivery) fun before => ?_
    cases before with
    | some halt => exact Adds.pure (.begun item items) _
    | none =>
      refine Adds.mark_bind _ (Adds.actless_bind (.invoked item items)
        (.attempt Actless.law.toLaw (Actless.law.invoke item)) fun result => ?_)
      cases result with
      | ok =>
        have hdone : ItemActs (item :: items) _ := .succeeded (.stopped items)
        refine Adds.mark_bind _ (Adds.actless_bind hdone (hfire _) fun delivery =>
          Adds.actless_bind hdone (hhalt delivery) fun succeeded => ?_)
        cases succeeded with
        | some halt => exact Adds.pure hdone _
        | none => exact fun w => (ih setbacks w).mono fun t ht => .succeeded ht
      | error failure =>
        have hdone : ItemActs (item :: items) _ := .failed (.stopped items)
        refine Adds.mark_bind _ (Adds.actless_bind hdone (hfire _) fun delivery =>
          Adds.actless_bind hdone (hhalt delivery) fun failed => ?_)
        simp only [pure_bind]
        split
        · exact Adds.pure hdone _
        · exact fun w => (ih _ w).mono fun t ht => .failed ht
        · exact Adds.pure hdone _

/-! ## The run as a whole -/

theorem ItemActs.spans {items : List Item} {t : List Act} (h : ItemActs items t) :
    Spans items t :=
  ⟨[], t, [], by simp, by simp [Stepfree], h, by simp [Stepfree]⟩

theorem Stepfree.spans {t : List Act} (h : Stepfree t) (items : List Item) : Spans items t :=
  ⟨t, [], [], by simp, h, .stopped items, by simp [Stepfree]⟩

theorem Spans.append {items : List Item} {t t' : List Act} (h : Spans items t)
    (h' : Stepfree t') : Spans items (t ++ t') := by
  obtain ⟨first, middle, last, rfl, hfirst, hmiddle, hlast⟩ := h
  exact ⟨first, middle, last ++ t', List.append_assoc _ _ _, hfirst, hmiddle,
    List.forall_mem_append.mpr ⟨hlast, h'⟩⟩

theorem Spans.prepend {items : List Item} {t t' : List Act} (h : Stepfree t)
    (h' : Spans items t') : Spans items (t ++ t') := by
  obtain ⟨first, middle, last, rfl, hfirst, hmiddle, hlast⟩ := h'
  exact ⟨t ++ first, middle, last, by simp only [List.append_assoc],
    List.forall_mem_append.mpr ⟨h, hfirst⟩, hmiddle, hlast⟩

section
variable {items : List Item}

theorem Spans.after {x : Run α} {f : α → Run β} (hx : Obeys (Adds Stepfree) x)
    (hf : ∀ a, Obeys (Adds (Spans items)) (f a)) : Obeys (Adds (Spans items)) (x >>= f) :=
  .chain (fun h => h.mono fun _ ht => ht.spans items)
    (fun h h' => h.trans h' fun _ _ => Spans.prepend) hx hf

theorem Spans.before {x : Run α} {f : α → Run β} (hx : Obeys (Adds (Spans items)) x)
    (hf : ∀ a, Obeys (Adds Stepfree) (f a)) : Obeys (Adds (Spans items)) (x >>= f) :=
  .chain id (fun h h' => h.trans h' fun _ _ => Spans.append) hx hf

theorem spans_drive (runner : HookRunner) : Obeys (Adds (Spans items)) (drive runner items) := by
  have hsteps (setbacks : Setbacks) : Obeys (Adds (Spans items)) (runSteps items setbacks) := by
    have hitems : Obeys (Adds (Spans items)) (ensuring (runItems items setbacks) (setStep none)) :=
      .ensuring (fun w => (itemActs_runItems items setbacks w).mono fun _ => ItemActs.spans)
        (fun _ => rfl) fun h => h
    exact Spans.before hitems fun _ => .bind Stepfree.law (Stepfree.frameLaw.mark rfl) fun _ =>
      Stepfree.frameLaw.finish (Stepfree.of_actless Actless.law.deliveryLaw.fireEnd) _
  refine Spans.after (stepfree_startSession runner) fun setbacks => ?_
  split
  · exact Adds.pure (ItemActs.stopped items).spans _
  · exact hsteps _

end

/-- In every run, however it ends, the items come one after the other, and no other act belongs to
a step. -/
theorem spans_execute (setup : Setup) (runner : HookRunner) (items : List Item) (w : World) :
    Adds (Spans items) w none (exec (execute setup runner items) w).2 := by
  have hsession : Adds (Spans items) w none (exec (runSession setup runner items) w).2 := by
    rw [exec_runSession]
    have hannounce : Obeys (Adds Stepfree) announce :=
      Stepfree.of_actless Actless.law.logLaw.tellLaw.announce
    exact (Spans.after hannounce fun _ => Spans.before (spans_drive runner) fun setbacks =>
      stepfree_ending setup runner _ setbacks) w.opened
  have hcleanup : Obeys (Adds Stepfree) (do mark .cleanup; cleanup) :=
    .bind Stepfree.law (Stepfree.frameLaw.mark rfl) fun _ =>
      Stepfree.of_actless fun w => Actless.law.step (.cleanup w)
  have hclose : Obeys (Adds Stepfree) (do mark .closeLog; closeLog) :=
    .bind Stepfree.law (Stepfree.frameLaw.mark rfl) fun _ => Stepfree.of_actless fun _ => rfl
  rw [exec_execute_world]
  have hclosed : Adds (Spans items) w none _ :=
    hsession.trans (hcleanup _) fun _ _ => Spans.append
  exact hclosed.trans (hclose _) fun _ _ => Spans.append

end ReleaseRunner.Session
