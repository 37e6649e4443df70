import ReleaseRunner.Proofs.Session.Account

/-!
# Runs told by their exchanges

`Follows` says of a computation of the runner which exchanges it comes to and what it gives
after them, in every run that no abort ends. It is put together from the parts of the
computation: what the runner does for itself (`Murmurs`), a marked act with the answer to it, and
an event with the records about the listeners that failed. None of this tells the outcome of the
session, which is left to its end. The answers themselves cannot fail but by an abort
(`OnlyAborts`), since the deliveries make the failures of listeners into results.
-/

namespace ReleaseRunner.Session

open Config Log

variable {α β : Type}

/-! ## What the runner does for itself -/

/-- The runner only sees to its own affairs, and tells neither an outcome nor that a listener
failed. -/
structure Undertone (u v : World) : Prop extends Aside u v where
  untold : ∃ new, v.journal = u.journal ++ new ∧
    ∀ record ∈ World.records new, tellsOutcome record = false ∧ tellsListener record = false

namespace Undertone

theorem silent {u v : World} (h : Aside u v) (hjournal : v.journal = u.journal) : Undertone u v :=
  ⟨h, [], by rw [hjournal, List.append_nil], by simp [World.records]⟩

theorem refl (w : World) : Undertone w w := silent (.refl w) rfl

theorem trans {u v w : World} (h : Undertone u v) (h' : Undertone v w) : Undertone u w := by
  obtain ⟨new, hnew, hnone⟩ := h.untold
  obtain ⟨new', hnew', hnone'⟩ := h'.untold
  refine ⟨h.toAside.trans h'.toAside, new ++ new', ?_, ?_⟩
  · rw [hnew', hnew, List.append_assoc]
  · unfold World.records at hnone hnone' ⊢
    rw [List.filterMap_append, List.forall_mem_append]
    exact ⟨hnone, hnone'⟩

end Undertone

/-- A record that is added is an affair of the runner. -/
theorem Aside.record (w : World) (record : Record) :
    Aside w (w.noted (.record record (w.reach record.level))) := by
  refine ⟨rfl, [.record record (w.reach record.level)], rfl, fun entry hentry => ?_⟩
  rw [List.mem_singleton.mp hentry]
  exact ⟨record, rfl⟩

/-- The computation gives the result, and the runner only sees to its own affairs. -/
def Murmurs (x : Run α) (a : α) : Prop :=
  ∀ w, ∃ v, exec x w = (.ok a, v) ∧ Undertone w v

namespace Murmurs

theorem pure (a : α) : Murmurs (Pure.pure a : Run α) a :=
  fun w => ⟨w, rfl, .refl w⟩

theorem bind {x : Run α} {f : α → Run β} {a : α} {b : β} (hx : Murmurs x a)
    (hf : Murmurs (f a) b) : Murmurs (x >>= f) b := by
  intro w
  obtain ⟨v, hv, haside⟩ := hx w
  obtain ⟨u, hu, haside'⟩ := hf v
  exact ⟨u, by rw [exec_bind_ok hv, hu], haside.trans haside'⟩

theorem get_bind {f : World → Run α} {a : α} (hf : ∀ w, Murmurs (f w) a) :
    Murmurs ((MonadState.get : Run World) >>= f) a :=
  fun w => hf w w

theorem forM {f : β → Run PUnit} {l : List β} (h : ∀ b ∈ l, Murmurs (f b) ⟨⟩) :
    Murmurs (l.forM f) ⟨⟩ := by
  induction l with
  | nil => exact fun w => ⟨w, rfl, .refl w⟩
  | cons b l ih =>
    show Murmurs (f b >>= fun _ => l.forM f) ⟨⟩
    have hrest := ih fun c hc => h c (List.mem_cons_of_mem _ hc)
    exact .bind (h b List.mem_cons_self) hrest

/-- What the runner logs on the way succeeds, and tells no outcome. -/
theorem say {level : Level} {message : String} {values : List Json} {extra : Members}
    {traceback : Bool} (h : Saying level message values extra traceback)
    (hmessage : message ≠ "Listener %s failed") :
    Murmurs (Session.say level message values extra traceback) () := by
  intro w
  rcases exec_say_untaken h.untaken level message values traceback w with
    hnone | ⟨record, hmake, hrecord⟩
  · exact ⟨w, hnone, .refl w⟩
  · have hfill := message_of_make? hmake
    obtain rfl := level_of_make? hmake
    refine ⟨_, hrecord, .record w record, [.record record _], rfl, ?_⟩
    unfold World.records
    simp [h.untold hmessage hfill, h.silent hmessage hfill]

theorem trace (failure : Failure) : Murmurs (Session.trace failure) () :=
  say (.failure failure) (by decide)

theorem setStep (step : Option String) : Murmurs (Session.setStep step) () :=
  fun w => ⟨_, rfl, .silent ⟨rfl, [], by simp, by simp⟩ rfl⟩

theorem announce : Murmurs Session.announce () := by
  refine .get_bind fun _ => .bind (say (.dryRun _) (by decide))
    (.get_bind fun w => .forM fun entry hentry => ?_)
  obtain ⟨filter, names, rfl⟩ := filter_of_active hentry
  exact say (.filter filter names) (by decide)

end Murmurs

/-! ## The frame of a session -/

/-- The world in which a session begins: the clock was read, and nothing is kept of a session
before. -/
def World.opened (w : World) : World :=
  { w with clock := w.clock.read.2, ended := false, outcome := none }

/-- What the runner does after the end of the session was told. -/
def ending (setup : Setup) (runner : HookRunner) (start : Instant) (setbacks : Setbacks) :
    Run Unit := do
  let stop ← stampEnd
  let outcome ← reportOutcome setup setbacks
  closeUp runner outcome (durationText start stop)

/-- A session is announced, driven from the hooks in front of it to its end, and ended. -/
theorem exec_runSession (setup : Setup) (runner : HookRunner) (items : List Item) (w : World) :
    exec (runSession setup runner items) w =
      exec (do
        announce
        let setbacks ← drive runner items
        ending setup runner w.clock.next setbacks) w.opened := by
  unfold runSession
  rw [exec_bind_ok (exec_now w), exec_bind_ok (exec_modify _ _)]
  rfl

/-! ## What only an abort can end -/

/-- The computation fails with nothing but aborts. -/
def OnlyAborts (x : Run α) : Prop :=
  ∀ w f v, exec x w = (.error f, v) → f.isAbort = true

namespace OnlyAborts

theorem pure (a : α) : OnlyAborts (Pure.pure a : Run α) := by
  intro w f v h
  rw [exec_pure] at h
  cases h

theorem raise {f : Failure} (h : f.isAbort = true) : OnlyAborts (Session.raise f : Run α) := by
  intro w g v hg
  rw [exec_raise] at hg
  cases hg
  exact h

theorem bind {x : Run α} {f : α → Run β} (hx : OnlyAborts x) (hf : ∀ a, OnlyAborts (f a)) :
    OnlyAborts (x >>= f) := by
  intro w g v h
  rw [exec_bind] at h
  rcases hr : exec x w with ⟨e | a, u⟩
  · rw [hr] at h
    cases h
    exact hx w _ _ hr
  · rw [hr] at h
    exact hf a u g v h

theorem get_bind {f : World → Run α} (hf : ∀ w, OnlyAborts (f w)) :
    OnlyAborts ((MonadState.get : Run World) >>= f) :=
  fun w => hf w w

theorem attempt (x : Run α) : OnlyAborts (Session.attempt x) := by
  intro w f v h
  rcases hr : exec x w with ⟨e | a, u⟩
  · cases hf : e.isAbort
    · rw [exec_attempt_caught hr hf] at h
      cases h
    · rw [exec_attempt_abort hr hf] at h
      cases h
      exact hf
  · rw [exec_attempt_ok hr] at h
    cases h

theorem deliverFrom (fire : Event → Run Bool) (key : String) :
    ∀ (calls place : Nat) (tolerated : List ListenerFailure),
      OnlyAborts (Session.deliverFrom fire key calls place tolerated) := by
  intro calls
  induction calls with
  | zero => exact fun _ _ => raise rfl
  | succ calls ih =>
    intro place tolerated
    refine .get_bind fun w => ?_
    split
    · exact pure _
    · refine .bind (attempt _) fun result => ?_
      split
      · exact ih _ _
      · refine .get_bind fun v => ?_
        dsimp only
        split
        · exact ih _ _
        · exact pure _

theorem deliver (fire : Event → Run Bool) (key : String) :
    OnlyAborts (Session.deliver fire key) := by
  refine .get_bind fun w => ?_
  split
  · exact pure _
  · split
    · exact pure _
    · exact deliverFrom _ _ _ _ _

theorem recordEvent (members : Members) : OnlyAborts (Session.recordEvent members) := by
  intro w f v h
  cases h

/-- Firing an event fails with nothing but aborts, whatever the listeners do. -/
theorem fire (event : Event) : OnlyAborts (Session.fire event) := by
  refine .get_bind fun w => ?_
  cases w.limits.nesting with
  | zero =>
    -- too deep a nesting is told by an abort
    exact raise rfl
  | succ depth => exact .bind (recordEvent _) fun _ => deliver _ _

theorem fireStart : OnlyAborts Session.fireStart :=
  .bind (recordEvent _) fun _ => deliver _ _

theorem fireEnd : OnlyAborts Session.fireEnd :=
  .bind (recordEvent _) fun _ => deliver _ _

theorem cleanup : OnlyAborts Session.cleanup := by
  intro w f v h
  obtain ⟨new, hcleaned⟩ := cleanup_cleans w
  have habort := hcleaned.abort
  rw [h] at habort
  exact (Option.filter_eq_some_iff.mp habort).2

end OnlyAborts

/-! ## Following exchanges -/

/-- The exchanges take place, and none of the records that the runner makes by itself around them
tells an outcome. -/
def Unconcluded (setup : Setup) (runner : HookRunner) (u : World) (t : List Exchange)
    (v : World) : Prop :=
  ∃ own, Chronicled setup runner u t own v ∧ own.filter tellsOutcome = []

/-- The exchanges are accounted for, and none of the other records that the runner makes by itself
around them tells an outcome. -/
def Ongoing (setup : Setup) (runner : HookRunner) (u : World) (t : List Exchange)
    (v : World) : Prop :=
  ∃ own, Accounted setup runner u t own v ∧ own.filter tellsOutcome = []

namespace Ongoing

variable {setup : Setup} {runner : HookRunner}

theorem of_undertone {u v : World} (h : Undertone u v) : Ongoing setup runner u [] v := by
  obtain ⟨new, hnew, hnone⟩ := h.untold
  refine ⟨_, .of_aside h.toAside hnew fun record hrecord => (hnone record hrecord).2, ?_⟩
  rw [List.filter_eq_nil_iff]
  intro record hrecord
  rw [(hnone record hrecord).1]
  exact Bool.false_ne_true

theorem settled (outcome : Outcome) (w : World) :
    Ongoing setup runner w [] { w with outcome := some outcome } :=
  ⟨[], .settled outcome (.nil _), rfl⟩

theorem answered {u v : World} {e : Exchange} (hfired : e.fired? = none)
    (h : e.Happens setup runner (u.noted (.act e.act)) v) : Ongoing setup runner u [e] v :=
  ⟨[], .answered hfired h (.nil v), rfl⟩

theorem fired {u v : World} {e : Exchange} {fired : Fired} (hfired : e.fired? = some fired)
    (h : e.Happens setup runner (u.noted (.act e.act)) v) :
    Ongoing setup runner u [e] (v.toldOf fired.delivery) :=
  ⟨[], .fired hfired h (delivers_of_happens h hfired) (.nil _), rfl⟩

theorem trans {u v w : World} {t t' : List Exchange} (h : Ongoing setup runner u t v)
    (h' : Ongoing setup runner v t' w) : Ongoing setup runner u (t ++ t') w := by
  obtain ⟨own, hown, hnone⟩ := h
  obtain ⟨own', hown', hnone'⟩ := h'
  refine ⟨_, hown.trans hown', ?_⟩
  rw [List.filter_append, hnone, hnone']
  rfl

theorem unconcluded {u v : World} {t : List Exchange} (h : Ongoing setup runner u t v) :
    Unconcluded setup runner u t v := by
  obtain ⟨own, hown, hnone⟩ := h
  obtain ⟨own', hown', htells⟩ := hown.chronicled
  exact ⟨own', hown', htells.trans hnone⟩

end Ongoing

/-- No failure is left to the computation but an abort. -/
def Never (_ : Failure) (_ : List Exchange) : Prop := False

/-- In every run that no abort ends, the computation comes to exchanges after which it gives a
result, or fails, as described. -/
def Follows (setup : Setup) (runner : HookRunner) (x : Run α) (Q : α → List Exchange → Prop)
    (E : Failure → List Exchange → Prop) : Prop :=
  ∀ w, match exec x w with
    | (.ok a, v) => ∃ t, Ongoing setup runner w t v ∧ Q a t
    | (.error f, v) => f.isAbort = true ∨ ∃ t, Ongoing setup runner w t v ∧ E f t

namespace Follows

variable {setup : Setup} {runner : HookRunner}
  {Q : α → List Exchange → Prop} {E : Failure → List Exchange → Prop}

theorem murmurs {x : Run α} {a : α} (h : Murmurs x a) (hQ : Q a []) :
    Follows setup runner x Q E := by
  intro w
  obtain ⟨v, hv, haside⟩ := h w
  rw [hv]
  exact ⟨[], .of_undertone haside, hQ⟩

theorem pure {a : α} (h : Q a []) : Follows setup runner (Pure.pure a) Q E :=
  murmurs (.pure a) h

/-- The outcome is settled without an exchange. -/
theorem settled (outcome : Outcome) :
    Follows setup runner (modify fun w => { w with outcome := some outcome })
      (fun _ t => t = []) E :=
  fun w => ⟨[], .settled outcome w, rfl⟩

/-- A computation and what comes after it. -/
theorem chain {x : Run α} {f : α → Run β} {R : β → List Exchange → Prop}
    (hx : Follows setup runner x Q E)
    (hf : ∀ a t, Q a t → Follows setup runner (f a) (fun b t' => R b (t ++ t'))
      fun e t' => E e (t ++ t')) : Follows setup runner (x >>= f) R E := by
  intro w
  have h := hx w
  rw [exec_bind]
  rcases hr : exec x w with ⟨e | a, v⟩
  · rw [hr] at h
    exact h
  · rw [hr] at h
    obtain ⟨t, hperformed, hQ⟩ := h
    -- the second part goes on with the exchanges from the world that the first one left
    have h' := hf a t hQ v
    dsimp only
    rcases hr' : exec (f a) v with ⟨e | b, u⟩
    · rw [hr'] at h'
      rcases h' with habort | ⟨t', hperformed', hE⟩
      · exact .inl habort
      · exact .inr ⟨t ++ t', hperformed.trans hperformed', hE⟩
    · rw [hr'] at h'
      obtain ⟨t', hperformed', hR⟩ := h'
      exact ⟨t ++ t', hperformed.trans hperformed', hR⟩

theorem mono {x : Run α} {R : α → List Exchange → Prop} {F : Failure → List Exchange → Prop}
    (h : Follows setup runner x Q E) (hQ : ∀ a t, Q a t → R a t) (hE : ∀ f t, E f t → F f t) :
    Follows setup runner x R F := by
  intro w
  have hw := h w
  rcases hr : exec x w with ⟨e | a, v⟩
  · rw [hr] at hw
    rcases hw with habort | ⟨t, hperformed, ht⟩
    · exact .inl habort
    · exact .inr ⟨t, hperformed, hE e t ht⟩
  · rw [hr] at hw
    obtain ⟨t, hperformed, ht⟩ := hw
    exact ⟨t, hperformed, hQ a t ht⟩

/-- A computation that only an abort ends, and what comes after it. -/
theorem bind {x : Run α} {f : α → Run β} {R : β → List Exchange → Prop}
    (hx : Follows setup runner x Q Never)
    (hf : ∀ a t, Q a t → Follows setup runner (f a) (fun b t' => R b (t ++ t'))
      fun e t' => E e (t ++ t')) : Follows setup runner (x >>= f) R E :=
  chain (hx.mono (fun _ _ h => h) fun _ _ h => h.elim) hf

/-- What the runner does for itself adds nothing to the exchanges. -/
theorem murmurs_bind {x : Run α} {f : α → Run β} {a : α} {R : β → List Exchange → Prop}
    (hx : Murmurs x a) (hf : Follows setup runner (f a) R E) :
    Follows setup runner (x >>= f) R E := by
  refine bind (murmurs hx (Q := fun b t => b = a ∧ t = []) ⟨rfl, rfl⟩) ?_
  rintro _ _ ⟨rfl, rfl⟩
  exact hf

/-- A marked act whose failure is caught is an exchange, with the failure for its answer. -/
theorem attempted {x : Run Unit} {act : Act} (e : Option Failure → Exchange)
    (hact : ∀ failure, (e failure).act = act) (hfired : ∀ failure, (e failure).fired? = none)
    (he : ∀ failure u v, Ends x u failure v → (e failure).Happens setup runner u v) :
    Follows setup runner (mark act >>= fun _ => attempt x)
      (fun r t => t = [e (failure? r)]) E := by
  intro w
  have hmark : exec (mark act >>= fun _ => attempt x) w = exec (attempt x) (w.noted (.act act)) :=
    rfl
  have hhappens : ∀ failure v, Ends x (w.noted (.act act)) failure v →
      Ongoing setup runner w [e failure] v := by
    intro failure v hends
    refine .answered (hfired failure) ?_
    rw [hact]
    exact he failure _ v hends
  rw [hmark]
  -- the answer is how the computation itself ended, since what was caught is given back
  rcases hr : exec x (w.noted (.act act)) with ⟨f | _, v⟩
  · cases hf : f.isAbort
    · rw [exec_attempt_caught hr hf]
      exact ⟨[e (some f)], hhappens _ v (ends_of_error hr), rfl⟩
    · rw [exec_attempt_abort hr hf]
      exact .inl hf
  · rw [exec_attempt_ok hr]
    exact ⟨[e none], hhappens _ v (ends_of_ok hr), rfl⟩

/-- A marked event is an exchange, after which the failures of the listeners are logged and the
runner goes on with the one that halts it. -/
theorem fired {x : Run Delivery} {k : Delivery → Option Failure → Run α} {act : Act}
    (e : Delivery → Exchange) (hx : OnlyAborts x) (hact : ∀ d, (e d).act = act)
    (hfired : ∀ d, ∃ fired, (e d).fired? = some fired ∧ fired.delivery = d)
    (he : ∀ d u v, exec x u = (.ok d, v) → (e d).Happens setup runner u v)
    (hk : ∀ d, Follows setup runner (k d (d.halted.map (·.cause)))
      (fun a t => Q a (e d :: t)) fun f t => E f (e d :: t)) :
    Follows setup runner (mark act >>= fun _ => x >>= fun d => haltOf d >>= k d) Q E := by
  intro w
  have hmark : exec (mark act >>= fun _ => x >>= fun d => haltOf d >>= k d) w =
      exec (x >>= fun d => haltOf d >>= k d) (w.noted (.act act)) := rfl
  rw [hmark]
  rcases hr : exec x (w.noted (.act act)) with ⟨f | d, v⟩
  · rw [exec_bind_error hr]
    exact .inl (hx _ f v hr)
  · obtain ⟨fired, hfired, rfl⟩ := hfired d
    have hhappens : (e fired.delivery).Happens setup runner
        (w.noted (.act (e fired.delivery).act)) v := by
      rw [hact]
      exact he _ _ v hr
    have hongoing := Ongoing.fired hfired hhappens
    have hrest := hk fired.delivery (v.toldOf fired.delivery)
    have hexec : exec (x >>= fun d => haltOf d >>= k d) (w.noted (.act act)) =
        exec (k fired.delivery (fired.delivery.halted.map (·.cause)))
          (v.toldOf fired.delivery) := by
      rw [exec_bind_ok hr, exec_bind_ok (exec_haltOf _ v)]
    rw [hexec]
    rcases hr' : exec (k fired.delivery (fired.delivery.halted.map (·.cause)))
      (v.toldOf fired.delivery) with ⟨f | a, u⟩
    · rw [hr'] at hrest ⊢
      exact hrest.imp id fun ⟨t, ht, hE⟩ => ⟨_ :: t, hongoing.trans ht, hE⟩
    · rw [hr'] at hrest ⊢
      obtain ⟨t, ht, hQ⟩ := hrest
      exact ⟨_ :: t, hongoing.trans ht, hQ⟩

/-- A marked event is an exchange, and gives the failure that halts the run. -/
theorem halted {x : Run Delivery} {act : Act} (e : Delivery → Exchange) (hx : OnlyAborts x)
    (hact : ∀ d, (e d).act = act)
    (hfired : ∀ d, ∃ fired, (e d).fired? = some fired ∧ fired.delivery = d)
    (he : ∀ d u v, exec x u = (.ok d, v) → (e d).Happens setup runner u v) :
    Follows setup runner (mark act >>= fun _ => x >>= haltOf)
      (fun halt t => ∃ d, t = [e d] ∧ halt = d.halted.map (·.cause)) Never := by
  have hpure : (mark act >>= fun _ => x >>= haltOf) =
      mark act >>= fun _ => x >>= fun d => haltOf d >>= Pure.pure := by
    simp only [bind_pure]
  rw [hpure]
  exact fired e hx hact hfired he fun d => .pure ⟨d, rfl, rfl⟩

/-- A marked act is an exchange, and its failure passes on. -/
theorem answered {x : Run Unit} {act : Act} (e : Option Failure → Exchange)
    (hact : ∀ failure, (e failure).act = act) (hfired : ∀ failure, (e failure).fired? = none)
    (he : ∀ failure u v, Ends x u failure v → (e failure).Happens setup runner u v) :
    Follows setup runner (mark act >>= fun _ => x) (fun _ t => t = [e none])
      (fun f t => t = [e (some f)]) := by
  intro w
  have hmark : exec (mark act >>= fun _ => x) w = exec x (w.noted (.act act)) := rfl
  have hhappens : ∀ failure v, Ends x (w.noted (.act act)) failure v →
      Ongoing setup runner w [e failure] v := by
    intro failure v hends
    refine .answered (hfired failure) ?_
    rw [hact]
    exact he failure _ v hends
  rw [hmark]
  rcases hr : exec x (w.noted (.act act)) with ⟨f | _, v⟩
  · exact .inr ⟨[e (some f)], hhappens _ v (ends_of_error hr), rfl⟩
  · exact ⟨[e none], hhappens _ v (ends_of_ok hr), rfl⟩

/-- What comes after a marked act may be told apart from it. -/
theorem marked {x : Run α} {f : α → Run β} {act : Act} {R : β → List Exchange → Prop}
    (h : Follows setup runner ((mark act >>= fun _ => x) >>= f) R E) :
    Follows setup runner (mark act >>= fun _ => x >>= f) R E := by
  rw [bind_assoc] at h
  exact h

/-- The runner may do something for itself last, in any case. -/
theorem ensuring {x : Run α} {last : Run Unit} (hx : Follows setup runner x Q E)
    (hlast : Murmurs last ()) : Follows setup runner (Session.ensuring x last) Q E := by
  intro w
  have h := hx w
  obtain ⟨v, hv, haside⟩ := hlast (exec x w).2
  rw [exec_ensuring, hv]
  dsimp only
  rcases hr : exec x w with ⟨e | a, u⟩
  · rw [hr] at h haside
    rcases h with habort | ⟨t, hperformed, hE⟩
    · exact .inl habort
    · refine .inr ⟨t, ?_, hE⟩
      have := hperformed.trans (.of_undertone haside)
      rwa [List.append_nil] at this
  · rw [hr] at h haside
    obtain ⟨t, hperformed, hQ⟩ := h
    refine ⟨t, ?_, hQ⟩
    have := hperformed.trans (.of_undertone haside)
    rwa [List.append_nil] at this

/-- The ways in which a computation ends. -/
theorem ends {x : Run α} (h : Follows setup runner x Q E) (w : World) :
    (∃ f v, exec x w = (.error f, v) ∧ f.isAbort = true) ∨
      (∃ f v t, exec x w = (.error f, v) ∧ Ongoing setup runner w t v ∧ E f t) ∨
      ∃ a v t, exec x w = (.ok a, v) ∧ Ongoing setup runner w t v ∧ Q a t := by
  have hw := h w
  rcases hr : exec x w with ⟨f | a, v⟩
  · rw [hr] at hw
    rcases hw with habort | ⟨t, hperformed, hE⟩
    · exact .inl ⟨f, v, rfl, habort⟩
    · exact .inr (.inl ⟨f, v, t, rfl, hperformed, hE⟩)
  · rw [hr] at hw
    obtain ⟨t, hperformed, hQ⟩ := hw
    exact .inr (.inr ⟨a, v, t, rfl, hperformed, hQ⟩)

/-- What only an abort can end gives a result otherwise. -/
theorem gives {x : Run α} (h : Follows setup runner x Q Never) (w : World) :
    (∃ f v, exec x w = (.error f, v) ∧ f.isAbort = true) ∨
      ∃ a v t, exec x w = (.ok a, v) ∧ Ongoing setup runner w t v ∧ Q a t :=
  (h.ends w).imp id fun h => h.resolve_left fun ⟨_, _, _, _, _, hnever⟩ => hnever

end Follows

end ReleaseRunner.Session
