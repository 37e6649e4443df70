import ReleaseRunner.Session.World

/-!
# Computations and the laws they obey

`exec` runs a computation in a world, and each way of putting computations together has one
equation for it. A `Law` relates the world before a computation, what the computation failed
with if it did, and the world after it, in such a way that it carries over from parts to the
whole. So whatever is to be shown of every run of a script or of the runner itself is stated
as a law and checked for the smallest steps alone.
-/

namespace ReleaseRunner.Session

variable {α β : Type}

/-! ## Running a computation -/

/-- What a computation gives in a world, and the world after it. -/
def exec (x : Run α) (w : World) : Except Failure α × World := x.run w

theorem exec_pure (a : α) (w : World) : exec (pure a : Run α) w = (.ok a, w) := rfl

theorem exec_get (w : World) : exec (get : Run World) w = (.ok w, w) := rfl

theorem exec_modify (g : World → World) (w : World) :
    exec (modify g : Run Unit) w = (.ok (), g w) := rfl

theorem exec_lift (e : Except Failure α) (w : World) : exec (liftM e : Run α) w = (e, w) := rfl

theorem exec_note (entry : Entry) (w : World) : exec (note entry) w = (.ok (), w.noted entry) := rfl

theorem exec_raise (f : Failure) (w : World) :
    exec (raise f : Run α) w = (.error f, w.noted (.raised f)) := rfl

theorem exec_now (w : World) :
    exec now w = (.ok w.clock.next, { w with clock := w.clock.read.2 }) := rfl

theorem exec_bind (x : Run α) (f : α → Run β) (w : World) :
    exec (x >>= f) w =
      match exec x w with
      | (.ok a, v) => exec (f a) v
      | (.error e, v) => (.error e, v) := by
  show (x >>= f) w = _
  simp only [bind, ExceptT.bind, ExceptT.mk, StateT.bind, ExceptT.bindCont, exec, ExceptT.run]
  rcases x w with ⟨_ | a, v⟩ <;> rfl

theorem exec_bind_ok {x : Run α} {f : α → Run β} {w v : World} {a : α}
    (h : exec x w = (.ok a, v)) : exec (x >>= f) w = exec (f a) v := by
  rw [exec_bind, h]

theorem exec_bind_error {x : Run α} {f : α → Run β} {w v : World} {e : Failure}
    (h : exec x w = (.error e, v)) : exec (x >>= f) w = (.error e, v) := by
  rw [exec_bind, h]

/-- A computation that gives a result got through its parts. -/
theorem ok_of_exec_bind {x : Run α} {f : α → Run β} {w v : World} {b : β}
    (h : exec (x >>= f) w = (.ok b, v)) :
    ∃ a u, exec x w = (.ok a, u) ∧ exec (f a) u = (.ok b, v) := by
  rw [exec_bind] at h
  rcases hr : exec x w with ⟨e | a, u⟩
  · rw [hr] at h
    cases h
  · rw [hr] at h
    exact ⟨a, u, rfl, h⟩

theorem exec_attempt (x : Run α) (w : World) :
    exec (attempt x) w =
      match exec x w with
      | (.ok a, v) => (.ok (.ok a), v)
      | (.error f, v) => if f.isAbort then (.error f, v) else (.ok (.error f), v) := rfl

theorem exec_attempt_ok {x : Run α} {w v : World} {a : α} (h : exec x w = (.ok a, v)) :
    exec (attempt x) w = (.ok (.ok a), v) := by
  rw [exec_attempt, h]

theorem exec_attempt_caught {x : Run α} {w v : World} {f : Failure}
    (h : exec x w = (.error f, v)) (hf : f.isAbort = false) :
    exec (attempt x) w = (.ok (.error f), v) := by
  rw [exec_attempt, h]
  simp only [hf, Bool.false_eq_true, if_false]

theorem exec_attempt_abort {x : Run α} {w v : World} {f : Failure}
    (h : exec x w = (.error f, v)) (hf : f.isAbort = true) :
    exec (attempt x) w = (.error f, v) := by
  rw [exec_attempt, h]
  simp only [hf, if_true]

theorem exec_ensuring (x : Run α) (last : Run Unit) (w : World) :
    exec (ensuring x last) w =
      match exec last (exec x w).2 with
      | (.ok (), v) => ((exec x w).1, v)
      | (.error f, v) => (.error f, v) := rfl

/-! ## Laws -/

/-- What a computation failed with, if it did. -/
def failure? : Except Failure α → Option Failure
  | .ok _ => none
  | .error f => some f

@[simp] theorem failure?_ok (a : α) : failure? (.ok a) = none := rfl

@[simp] theorem failure?_error (f : Failure) :
    failure? (.error f : Except Failure α) = some f := rfl

/-- A relation between the world before a computation, the failure it ended with, and the world
after it, which carries over to computations one after the other and to those whose failure
is caught. -/
structure Law (P : World → Option Failure → World → Prop) : Prop where
  refl : ∀ w, P w none w
  fail : ∀ w f, f.isAbort = false → P w (some f) w
  trans : ∀ {u v w e}, P u none v → P v e w → P u e w
  recover : ∀ {u v f}, P u (some f) v → f.isAbort = false → P u none v

/-- Every run of the computation is as the law says. -/
def Obeys (P : World → Option Failure → World → Prop) (x : Run α) : Prop :=
  ∀ w, P w (failure? (exec x w).1) (exec x w).2

/-- The run of the computation in this world is as the law says. -/
def ObeysAt (P : World → Option Failure → World → Prop) (x : Run α) (w : World) : Prop :=
  P w (failure? (exec x w).1) (exec x w).2

namespace ObeysAt

variable {P : World → Option Failure → World → Prop}

/-- Where two computations each obey a law of their own, both together obey what these come to. -/
theorem chain {Q R : World → Option Failure → World → Prop} {x : Run α} {f : α → Run β}
    {w : World} (hstop : ∀ {e v}, P w e v → R w e v)
    (htrans : ∀ {v e u}, P w none v → Q v e u → R w e u) (hx : ObeysAt P x w)
    (hf : ∀ a, Obeys Q (f a)) : ObeysAt R (x >>= f) w := by
  unfold ObeysAt at hx ⊢
  rw [exec_bind]
  rcases hr : exec x w with ⟨_ | a, v⟩
  · rw [hr] at hx
    exact hstop hx
  · rw [hr] at hx
    exact htrans hx (hf a v)

theorem bind (law : Law P) {x : Run α} {f : α → Run β} {w : World} (hx : ObeysAt P x w)
    (hf : ∀ a, Obeys P (f a)) : ObeysAt P (x >>= f) w :=
  chain id law.trans hx hf

theorem attempt (law : Law P) {x : Run α} {w : World} (hx : ObeysAt P x w) :
    ObeysAt P (Session.attempt x) w := by
  unfold ObeysAt at hx ⊢
  rcases hr : exec x w with ⟨f | a, v⟩
  · rw [hr] at hx
    -- an abort is not caught, so the law of the failure is the law of the whole
    cases hf : f.isAbort
    · rw [exec_attempt_caught hr hf]
      exact law.recover hx hf
    · rw [exec_attempt_abort hr hf]
      exact hx
  · rw [hr] at hx
    rw [exec_attempt_ok hr]
    exact hx

end ObeysAt

namespace Obeys

variable {P : World → Option Failure → World → Prop}

theorem pure (law : Law P) (a : α) : Obeys P (Pure.pure a : Run α) :=
  fun w => law.refl w

theorem throw (law : Law P) {f : Failure} (h : f.isAbort = false) :
    Obeys P (MonadExcept.throw f : Run α) :=
  fun w => law.fail w f h

/-- A check that fails with no abort. -/
theorem lift (law : Law P) {e : Except Failure α} (h : ∀ f, e = .error f → f.isAbort = false) :
    Obeys P (liftM e : Run α) := by
  intro w
  rw [exec_lift]
  cases e with
  | ok a => exact law.refl w
  | error f => exact law.fail w f (h f rfl)

theorem bind (law : Law P) {x : Run α} {f : α → Run β} (hx : Obeys P x)
    (hf : ∀ a, Obeys P (f a)) : Obeys P (x >>= f) :=
  fun w => ObeysAt.bind law (hx w) hf

theorem chain {Q R : World → Option Failure → World → Prop} {x : Run α} {f : α → Run β}
    (hstop : ∀ {u e v}, P u e v → R u e v)
    (htrans : ∀ {u v e w}, P u none v → Q v e w → R u e w) (hx : Obeys P x)
    (hf : ∀ a, Obeys Q (f a)) : Obeys R (x >>= f) :=
  fun w => ObeysAt.chain hstop htrans (hx w) hf

/-- Reading the world changes nothing. -/
theorem get_bind {f : World → Run α} (hf : ∀ v, Obeys P (f v)) :
    Obeys P ((MonadState.get : Run World) >>= f) :=
  fun w => hf w w

theorem attempt (law : Law P) {x : Run α} (hx : Obeys P x) :
    Obeys P (Session.attempt x) :=
  fun w => ObeysAt.attempt law (hx w)

theorem forM (law : Law P) {f : β → Run PUnit} :
    ∀ {l : List β}, (∀ b ∈ l, Obeys P (f b)) → Obeys P (l.forM f)
  | [], _ => Obeys.pure law _
  | b :: l, h => by
    show Obeys P (f b >>= fun _ => l.forM f)
    exact bind law (h b List.mem_cons_self) fun _ =>
      forM law fun c hc => h c (List.mem_cons_of_mem _ hc)

theorem foldlM (law : Law P) {f : α → β → Run α} (hf : ∀ a b, Obeys P (f a b)) :
    ∀ (l : List β) (a : α), Obeys P (l.foldlM f a)
  | [], _ => Obeys.pure law _
  | b :: l, a => by
    rw [List.foldlM_cons]
    exact bind law (hf a b) (foldlM law hf l)

/-- What is done last in any case may be left out of account where it never fails and the law
does not look at what it changes. -/
theorem ensuring {x : Run α} {last : Run Unit} (hx : Obeys P x)
    (hlast : ∀ v, (exec last v).1 = .ok ())
    (habsorb : ∀ {u e v}, P u e v → P u e (exec last v).2) :
    Obeys P (Session.ensuring x last) := by
  intro w
  have h := habsorb (hx w)
  have hok := hlast (exec x w).2
  rw [exec_ensuring]
  rcases hr : exec last (exec x w).2 with ⟨f | _, v⟩
  · rw [hr] at hok
    cases hok
  · rw [hr] at h
    exact h

end Obeys

end ReleaseRunner.Session
