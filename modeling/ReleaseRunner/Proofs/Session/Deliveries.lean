import ReleaseRunner.Proofs.Session.Following

/-!
# Listeners that are called after they were closed

A delivery goes through the listeners that are registered, and does not look again whether they
were closed meanwhile. So where a script closes the listeners in the middle of a delivery, those
whose turn comes later are called after they were closed. The main statement is that this is the
only way (`execute_callbacks`): whenever a listener is called, the innermost delivery under way
was begun before any listener was closed.

Which deliveries are under way is read off the journal by a `Watch`. Every delivery that an event
begins is ended by the answer to it, unless an abort ends the run.
-/

namespace ReleaseRunner.Session

/-! ## Watching the journal -/

/-- What the journal has told so far: whether a listener was closed, and for each delivery under
way, the innermost one first, whether it was begun before that. -/
structure Watch where
  closed : Bool
  deliveries : List Bool
deriving Repr, DecidableEq

namespace Watch

/-- An event begins a delivery and its answer ends it. None is under way when the runner itself
acts. -/
def see (s : Watch) : Entry → Watch
  | .event _ => { s with deliveries := (!s.closed) :: s.deliveries }
  | .call (.fired _) => { s with deliveries := s.deliveries.tail }
  | .call (.close _ _) => { s with closed := true }
  | .act _ => { s with deliveries := [] }
  | _ => s

/-- What is known after further entries. -/
def seeAll (s : Watch) (entries : List Entry) : Watch := entries.foldl see s

theorem seeAll_append (s : Watch) (a b : List Entry) : s.seeAll (a ++ b) = (s.seeAll a).seeAll b :=
  List.foldl_append

end Watch

/-- The entry is the call of a listener with an event. -/
def Entry.isCallback : Entry → Bool
  | .call (.listener _ _ _) => true
  | _ => false

/-- Listeners are only called in deliveries that were begun before any of them was closed. -/
def Timely (s : Watch) (new : List Entry) : Prop :=
  ∀ before entry after, new = before ++ entry :: after → entry.isCallback = true →
    (s.seeAll before).deliveries.head? = some true

theorem Timely.nil (s : Watch) : Timely s [] := by
  intro before entry after h
  simp at h

theorem Timely.single {s : Watch} {entry : Entry}
    (h : entry.isCallback = true → s.deliveries.head? = some true) : Timely s [entry] := by
  intro before entry' after hnew hcallback
  cases before with
  | nil =>
    cases hnew
    exact h hcallback
  | cons entry'' before =>
    have hlength := congrArg List.length hnew
    simp at hlength

theorem Timely.append {s : Watch} {a b : List Entry} (ha : Timely s a)
    (hb : Timely (s.seeAll a) b) : Timely s (a ++ b) := by
  intro before entry after hnew hcallback
  rcases List.append_eq_append_iff.mp hnew with ⟨more, rfl, hb'⟩ | ⟨more, rfl, hafter⟩
  · rw [Watch.seeAll_append]
    exact hb more entry after hb' hcallback
  · cases more with
    | nil =>
      rw [List.append_nil] at hb
      exact hb [] entry after hafter.symm hcallback
    | cons entry' more =>
      obtain ⟨rfl, rfl⟩ := List.cons.inj hafter
      exact ha before entry more rfl hcallback

/-- Once a listener was closed and no older delivery is under way, there never is one again. -/
private theorem seeAll_closed {s : Watch} (entries : List Entry) (hclosed : s.closed = true)
    (hlate : ∀ b ∈ s.deliveries, b = false) :
    ∀ b ∈ (s.seeAll entries).deliveries, b = false := by
  induction entries generalizing s with
  | nil => exact hlate
  | cons entry entries ih =>
    have hseen : (s.see entry).closed = true ∧ ∀ b ∈ (s.see entry).deliveries, b = false := by
      cases entry with
      | event members => simpa [Watch.see, hclosed] using hlate
      | act act => simp [Watch.see, hclosed]
      | call c =>
        cases c with
        | fired ok => exact ⟨hclosed, fun b hb => hlate b (List.mem_of_mem_tail hb)⟩
        | close id name => exact ⟨rfl, hlate⟩
        | _ => exact ⟨hclosed, hlate⟩
      | _ => exact ⟨hclosed, hlate⟩
    exact ih hseen.1 hseen.2

/-- Where no listener is closed in the middle of a delivery, none is called after that. -/
theorem Timely.not_isCallback {s : Watch} {new : List Entry} (h : Timely s new)
    (hquiet : ∀ before id name after, new = before ++ .call (.close id name) :: after →
      (s.seeAll before).deliveries = []) {before after : List Entry} {id : Nat} {name : String}
    (hnew : new = before ++ .call (.close id name) :: after) :
    ∀ entry ∈ after, entry.isCallback = false := by
  intro entry hentry
  obtain ⟨first, last, rfl⟩ := List.append_of_mem hentry
  cases hcallback : entry.isCallback with
  | false => rfl
  | true =>
    have hsplit : new = (before ++ .call (.close id name) :: first) ++ entry :: last := by
      rw [hnew, List.append_assoc, List.cons_append]
    have hbegun := h _ entry last hsplit hcallback
    rw [Watch.seeAll_append] at hbegun
    have hnone : ∀ b ∈ ((s.seeAll before).see (.call (.close id name))).deliveries, b = false := by
      show ∀ b ∈ (s.seeAll before).deliveries, b = false
      rw [hquiet before id name _ hnew]
      simp
    have hlate := seeAll_closed first rfl hnone true (List.mem_of_mem_head? hbegun)
    cases hlate

/-! ## What scripts keep to -/

/-- The entries are noted from where the watch stands: listeners are called in time, the roster
counts as closed if the watch saw it, and every delivery that was begun is ended, but for an
abort. -/
structure Kept (s : Watch) (e : Option Failure) (v : World) (new : List Entry) : Prop where
  timely : Timely s new
  closed : (s.seeAll new).closed = true → v.roster.closed = true
  balanced : e.filter Failure.isAbort = none → (s.seeAll new).deliveries = s.deliveries

/-- The law of scripts; that of a script in a delivery, which has to be one that was begun in
time, and that of a script which may be anywhere. -/
def Keeps (within : Bool) (u : World) (e : Option Failure) (v : World) : Prop :=
  ∃ new, v.journal = u.journal ++ new ∧ ∀ s : Watch,
    (within = true → s.deliveries.head? = some true) →
    (s.closed = true → u.roster.closed = true) → Kept s e v new

section
variable {within : Bool} {u v w : World} {e : Option Failure}

private theorem keeps_silent (hjournal : v.journal = u.journal)
    (hroster : u.roster.closed = true → v.roster.closed = true) : Keeps within u e v :=
  ⟨[], by rw [hjournal, List.append_nil], fun s _ hclosed =>
    ⟨.nil s, fun h => hroster (hclosed h), fun _ => rfl⟩⟩

private theorem keeps_noted (entry : Entry) (hentry : ∀ s : Watch, s.see entry = s)
    (hcallback : entry.isCallback = true → within = true)
    (hjournal : v.journal = u.journal ++ [entry])
    (hroster : u.roster.closed = true → v.roster.closed = true) : Keeps within u e v := by
  refine ⟨[entry], hjournal, fun s hwithin hclosed => ?_⟩
  refine ⟨.single fun h => hwithin (hcallback h), ?_, ?_⟩
  · intro h
    exact hroster (hclosed (by rwa [Watch.seeAll, List.foldl_cons, hentry] at h))
  · intro _
    rw [Watch.seeAll, List.foldl_cons, hentry]
    rfl

theorem Keeps.trans (h : Keeps within u none v) (h' : Keeps within v e w) : Keeps within u e w := by
  obtain ⟨new, hnew, hkept⟩ := h
  obtain ⟨new', hnew', hkept'⟩ := h'
  refine ⟨new ++ new', by rw [hnew', hnew, List.append_assoc], fun s hwithin hclosed => ?_⟩
  have hfirst := hkept s hwithin hclosed
  have hsame := hfirst.balanced rfl
  have hlast := hkept' (s.seeAll new) (by rwa [hsame]) hfirst.closed
  refine ⟨hfirst.timely.append hlast.timely, ?_, fun he => ?_⟩
  · rw [Watch.seeAll_append]
    exact hlast.closed
  · rw [Watch.seeAll_append, hlast.balanced he, hsame]

/-- Closing the listeners neither calls one with an event nor begins or ends a delivery. -/
private theorem seeAll_closing {new : List Entry} (h : ∀ entry ∈ new, entry.isClosing = true)
    (s : Watch) : Timely s new ∧ (s.seeAll new).deliveries = s.deliveries := by
  induction new generalizing s with
  | nil => exact ⟨.nil s, rfl⟩
  | cons entry new ih =>
    have hentry := h entry List.mem_cons_self
    have hseen : entry.isCallback = false ∧ (s.see entry).deliveries = s.deliveries := by
      cases entry with
      | call c =>
        cases c with
        | close id name => exact ⟨rfl, rfl⟩
        | _ => cases hentry
      | raised f => exact ⟨rfl, rfl⟩
      | record r reach => exact ⟨rfl, rfl⟩
      | _ => cases hentry
    have hnew : ∀ entry' ∈ new, entry'.isClosing = true :=
      fun entry' h' => h entry' (List.mem_cons_of_mem entry h')
    obtain ⟨htimely, hsame⟩ := ih hnew (s.see entry)
    refine ⟨Timely.append (a := [entry]) (.single ?_) htimely, hsame.trans hseen.2⟩
    rw [hseen.1]
    simp

private theorem keeps_cleanup (w : World) :
    Keeps within w (failure? (exec cleanup w).1) (exec cleanup w).2 := by
  obtain ⟨new, h⟩ := cleanup_cleans w
  refine ⟨new, h.journal, fun s _ _ => ?_⟩
  obtain ⟨htimely, hsame⟩ := seeAll_closing h.closing s
  exact ⟨htimely, fun _ => h.closed, fun _ => hsame⟩

theorem Keeps.law (within : Bool) : QuietLaw (Keeps within) where
  refl w := keeps_silent rfl id
  fail w f _ := keeps_silent rfl id
  trans := Keeps.trans
  recover h hf := by
    obtain ⟨new, hnew, hkept⟩ := h
    refine ⟨new, hnew, fun s hwithin hclosed => ?_⟩
    obtain ⟨htimely, hroster, hbalanced⟩ := hkept s hwithin hclosed
    exact ⟨htimely, hroster, fun _ => hbalanced (by rw [Option.filter_some, hf]; rfl)⟩
  step h := by
    cases h with
    | raise f => exact keeps_noted (.raised f) (fun _ => rfl) (by simp [Entry.isCallback]) rfl id
    | record r => exact keeps_noted (.record r _) (fun _ => rfl) (by simp [Entry.isCallback]) rfl id
    | elsewhere r =>
      exact keeps_noted (.record r _) (fun _ => rfl) (by simp [Entry.isCallback]) rfl id
    | call c hclosing hdelivery =>
      refine keeps_noted (.call c) (fun s => ?_) (fun h => ?_) rfl id
      · cases c with
        | close id name => cases hclosing
        | fired ok => cases hdelivery
        | _ => rfl
      · cases c with
        | listener id key name => cases hdelivery
        | _ => cases h
    | make listener hclosed => exact keeps_silent rfl id
    | enlist listener hopen => exact keeps_silent rfl id
    | policy name tolerant =>
      exact keeps_silent rfl fun h => by rwa [Roster.setPolicy_closed]
    | cleanup => exact keeps_cleanup _
    | _ => exact keeps_silent rfl id
  process w start := keeps_noted (.process start) (fun _ => rfl) (by simp [Entry.isCallback]) rfl id

end

/-! ## Deliveries -/

/-- The computation is a delivery that was begun and wants its answer: the watch sees it under
way at the end. Only an abort can end it before. -/
structure Opens {α : Type} (x : Run α) : Prop where
  aborts : OnlyAborts x
  kept : ∀ w, ∃ new, (exec x w).2.journal = w.journal ++ new ∧ ∀ s : Watch,
    (s.closed = true → w.roster.closed = true) → Timely s new ∧
      ((s.seeAll new).closed = true → (exec x w).2.roster.closed = true) ∧
      (failure? (exec x w).1 = none → (s.seeAll new).deliveries.tail = s.deliveries)

/-- The answer ends the delivery. -/
theorem Opens.answered {x : Run Delivery} (h : Opens x) (within : Bool) :
    Obeys (Keeps within) (do
      let ok ← (do return (← x).ok : Run Bool)
      note (.call (.fired ok))) := by
  intro w
  obtain ⟨new, hnew, hkept⟩ := h.kept w
  rcases hr : exec x w with ⟨f | delivery, v⟩
  · have hexec : exec (do
        let ok ← (do return (← x).ok : Run Bool)
        note (.call (.fired ok))) w = (.error f, v) :=
      exec_bind_error (exec_bind_error hr)
    rw [hr] at hnew hkept
    rw [hexec]
    refine ⟨new, hnew, fun s _ hclosed => ?_⟩
    obtain ⟨htimely, hroster, -⟩ := hkept s hclosed
    have habort := h.aborts w f v hr
    refine ⟨htimely, hroster, fun hnone => ?_⟩
    rw [failure?_error, Option.filter_some, habort] at hnone
    cases hnone
  · have hexec : exec (do
        let ok ← (do return (← x).ok : Run Bool)
        note (.call (.fired ok))) w = (.ok (), v.noted (.call (.fired delivery.ok))) := by
      have hok : exec (do return (← x).ok : Run Bool) w = (.ok delivery.ok, v) := by
        rw [exec_bind_ok hr]
        rfl
      rw [exec_bind_ok hok]
      rfl
    rw [hr] at hnew hkept
    rw [hexec]
    refine ⟨new ++ [.call (.fired delivery.ok)], ?_, fun s _ hclosed => ?_⟩
    · show v.journal ++ [_] = _
      rw [hnew, List.append_assoc]
    · obtain ⟨htimely, hroster, hbegun⟩ := hkept s hclosed
      refine ⟨htimely.append (.single (by simp [Entry.isCallback])), ?_, fun _ => ?_⟩
      · rw [Watch.seeAll_append]
        exact hroster
      · rw [Watch.seeAll_append]
        exact hbegun rfl

section
variable {fire : Event → Run Bool}
  (hfired : ∀ event, Obeys (Keeps true) (do let ok ← fire event; note (.call (.fired ok))))
include hfired

private theorem keeps_callListener (key : String) (id : Nat) (listener : Listener) :
    Obeys (Keeps true) (callListener fire key id listener) := by
  have law := Keeps.law true
  have hcall : Obeys (Keeps true) (note (.call (.listener id key listener.name))) := fun w =>
    keeps_noted (.call (.listener id key listener.name)) (fun _ => rfl) (fun _ => rfl) rfl
      fun h => h
  exact .bind law.toLaw hcall fun _ => .forM law.toLaw fun _ _ => law.act hfired _

/-- Listeners are only gone through where they are open, in a delivery begun in time. -/
private theorem kept_deliver (key : String) (w : World) :
    ∃ new, (exec (deliver fire key) w).2.journal = w.journal ++ new ∧ ∀ s : Watch,
      (w.roster.closed = false → s.deliveries.head? = some true) →
      (s.closed = true → w.roster.closed = true) →
      Kept s (failure? (exec (deliver fire key) w).1) (exec (deliver fire key) w).2 new := by
  have hnone : ∀ d : Delivery, exec (deliver fire key) w = (.ok d, w) →
      ∃ new, (exec (deliver fire key) w).2.journal = w.journal ++ new ∧ ∀ s : Watch,
        (w.roster.closed = false → s.deliveries.head? = some true) →
        (s.closed = true → w.roster.closed = true) →
        Kept s (failure? (exec (deliver fire key) w).1) (exec (deliver fire key) w).2 new := by
    intro d hd
    rw [hd]
    exact ⟨[], (List.append_nil _).symm, fun s _ hclosed => ⟨.nil s, hclosed, fun _ => rfl⟩⟩
  cases hforced : w.forced.lookup key with
  | some cause =>
    refine hnone ⟨some ⟨"forced", false, cause⟩, []⟩ ?_
    unfold deliver
    rw [exec_bind_ok (exec_get w), hforced]
    rfl
  | none =>
    by_cases hclosed : w.roster.closed = true
    · refine hnone ⟨none, []⟩ ?_
      unfold deliver
      rw [exec_bind_ok (exec_get w), hforced]
      dsimp only
      rw [if_pos hclosed]
      rfl
    · obtain ⟨calls, hexec⟩ : ∃ calls, exec (deliver fire key) w =
          exec (deliverFrom fire key calls 0 []) w := by
        unfold deliver
        rw [exec_bind_ok (exec_get w), hforced]
        dsimp only
        rw [if_neg hclosed]
        exact ⟨_, rfl⟩
      have hdeliver := (Keeps.law true).deliverFrom (keeps_callListener hfired key) calls 0 [] w
      rw [hexec]
      obtain ⟨new, hnew, hkept⟩ := hdeliver
      exact ⟨new, hnew, fun s hwithin => hkept s fun _ => hwithin (by simpa using hclosed)⟩

/-- An event is recorded, and its delivery is under way from then on. -/
private theorem opens_event (members : Members) (key : String) :
    Opens (do recordEvent members; deliver fire key) := by
  refine ⟨.bind (.recordEvent _) fun _ => .deliver _ _, fun w => ?_⟩
  let begun := World.noted { w with clock := w.clock.read.2 }
    (.event (("timestamp", .text w.clock.next.text) :: members))
  have hexec : exec (do recordEvent members; deliver fire key) w =
      exec (deliver fire key) begun := rfl
  rw [hexec]
  obtain ⟨new, hnew, hkept⟩ := kept_deliver hfired key begun
  refine ⟨_ :: new, by rw [hnew]; exact List.append_assoc _ _ _, fun s hclosed => ?_⟩
  -- where the listeners are open, the watch has seen none of them closed
  have hopen : w.roster.closed = false → s.closed = false := by
    intro h
    cases hs : s.closed with
    | false => rfl
    | true =>
      rw [hclosed hs] at h
      cases h
  have hwithin : begun.roster.closed = false → ((!s.closed) :: s.deliveries).head? = some true := by
    intro h
    rw [hopen h]
    rfl
  obtain ⟨htimely, hroster, hbalanced⟩ :=
    hkept { s with deliveries := (!s.closed) :: s.deliveries } hwithin hclosed
  refine ⟨Timely.append (a := [.event _]) (.single (by simp [Entry.isCallback])) htimely, hroster,
    fun hnone => ?_⟩
  have hsame := hbalanced (by rw [hnone]; rfl)
  exact congrArg List.tail hsame

end

private theorem opens_fireWithin (depth : Nat) (event : Event) :
    Opens (fireWithin depth event) := by
  induction depth generalizing event with
  | zero =>
    -- no event is recorded any more, and the abort is noted
    refine ⟨.raise rfl, fun w => ⟨[.raised endless], rfl, fun s hclosed => ?_⟩⟩
    exact ⟨.single (by simp [Entry.isCallback]), hclosed, fun h => by cases h⟩
  | succ depth ih => exact opens_event (fun event => (ih event).answered true) _ _

private theorem opens_fire (event : Event) : Opens (fire event) := by
  refine ⟨.fire event, fun w => ?_⟩
  exact (opens_fireWithin w.limits.nesting event).kept w

private theorem opens_fireStart : Opens fireStart :=
  opens_event (fun event => (opens_fire event).answered true) _ _

private theorem opens_fireEnd : Opens fireEnd :=
  opens_event (fun event => (opens_fire event).answered true) _ _

private theorem keeps_invoke (item : Item) : Obeys (Keeps false) item.invoke :=
  (Keeps.law false).invoke ((Keeps.law false).perform fun event =>
    (opens_fire event).answered false) item

/-! ## The run as a whole -/

/-- The law of the runner: listeners are called in time. What deliveries are under way matters no
more, since the runner acts when there are none. -/
def Attends (u : World) (_ : Option Failure) (v : World) : Prop :=
  ∃ new, v.journal = u.journal ++ new ∧ ∀ s : Watch,
    (s.closed = true → u.roster.closed = true) →
    Timely s new ∧ ((s.seeAll new).closed = true → v.roster.closed = true)

section
variable {u v w : World} {e : Option Failure}

private theorem Keeps.attends (h : Keeps false u e v) : Attends u e v := by
  obtain ⟨new, hnew, hkept⟩ := h
  refine ⟨new, hnew, fun s hclosed => ?_⟩
  have hs := hkept s (by simp) hclosed
  exact ⟨hs.timely, hs.closed⟩

private theorem Opens.attends {α : Type} {x : Run α} (h : Opens x) : Obeys Attends x := by
  intro w
  obtain ⟨new, hnew, hkept⟩ := h.kept w
  refine ⟨new, hnew, fun s hclosed => ?_⟩
  obtain ⟨htimely, hroster, -⟩ := hkept s hclosed
  exact ⟨htimely, hroster⟩

theorem Attends.trans (h : Attends u none v) (h' : Attends v e w) : Attends u e w := by
  obtain ⟨new, hnew, hkept⟩ := h
  obtain ⟨new', hnew', hkept'⟩ := h'
  refine ⟨new ++ new', by rw [hnew', hnew, List.append_assoc], fun s hclosed => ?_⟩
  obtain ⟨htimely, hroster⟩ := hkept s hclosed
  obtain ⟨htimely', hroster'⟩ := hkept' (s.seeAll new) hroster
  refine ⟨htimely.append htimely', ?_⟩
  rw [Watch.seeAll_append]
  exact hroster'

private theorem attends_act (act : Act) (hjournal : v.journal = u.journal ++ [.act act])
    (hroster : v.roster = u.roster) : Attends u e v :=
  ⟨[.act act], hjournal, fun s hclosed =>
    ⟨.single (by simp [Entry.isCallback]), fun h => by rw [hroster]; exact hclosed h⟩⟩

private theorem attends_own (h : RunnerStep u e v) : Attends u e v := by
  cases h with
  | mark act => exact attends_act act rfl rfl
  | _ => exact Keeps.attends (keeps_silent rfl fun h => h)

theorem Attends.law : RunnerLaw Attends where
  refl w := ((Keeps.law false).refl w).attends
  fail w f h := ((Keeps.law false).fail w f h).attends
  trans := Attends.trans
  recover h _ := h
  step h := ((Keeps.law false).step h).attends
  process w start := ((Keeps.law false).process w start).attends
  own := attends_own
  untag h := h
  fire event := (opens_fire event).attends
  fireStart := opens_fireStart.attends
  fireEnd := opens_fireEnd.attends
  invoke item := fun w => (keeps_invoke item w).attends

end

/-- In every run a listener is only called in a delivery that was begun before any listener was
closed. So where no listener is closed in the middle of a delivery, none is called after that. -/
theorem execute_callbacks (setup : Setup) (runner : HookRunner) (items : List Item) (w : World) :
    ∃ result v new, exec (execute setup runner items) w = (result, v) ∧
      v.journal = w.journal ++ new ∧
      let watch : Watch := ⟨w.roster.closed, []⟩
      (∀ before entry after, new = before ++ entry :: after → entry.isCallback = true →
        (watch.seeAll before).deliveries.head? = some true) ∧
      ((∀ before id name after, new = before ++ .call (.close id name) :: after →
          (watch.seeAll before).deliveries = []) →
        ∀ before id name after, new = before ++ .call (.close id name) :: after →
          ∀ entry ∈ after, entry.isCallback = false) := by
  let session := (exec (runSession setup runner items) w).2
  have hsession : Attends w none session := Attends.law.runSession setup runner items w
  have hmarked : Attends w none (session.noted (.act .cleanup)) :=
    hsession.trans (attends_act .cleanup rfl rfl)
  let cleaned := (exec cleanup (session.noted (.act .cleanup))).2
  have hcleaned : Attends w none cleaned := hmarked.trans (keeps_cleanup _).attends
  have hsealed : Attends w none cleaned.sealed := hcleaned.trans (attends_act .closeLog rfl rfl)
  obtain ⟨new, hnew, hkept⟩ := hsealed
  obtain ⟨htimely, -⟩ := hkept ⟨w.roster.closed, []⟩ id
  rw [exec_execute]
  dsimp only
  refine ⟨_, _, new, rfl, ?_, htimely, fun hquiet before id name after hsplit =>
    htimely.not_isCallback hquiet hsplit⟩
  rw [← hnew]
  split <;> rfl

/-- The listeners are closed while the first of them is told that the session starts. The second
is closed with them, and is told of the start all the same. -/
theorem execute_called_closed :
    ∃ (setup : Setup) (runner : HookRunner) (w : World),
      World.calls (exec (execute setup runner []) w).2.journal =
        ["session_start@First", "close@First", "close@Second", "session_start@Second"] := by
  let setup : Setup := {
    model := ⟨⟨"demo", "1.0.0", "SEMVER"⟩, ⟨true, [], [], [], []⟩, []⟩
    settings := ⟨.info, ⟨.here, ["out"]⟩, false, ⟨.here, ["release.json"]⟩⟩ }
  let first : Listener := ⟨"First", false, [], [("session_start", [.cleanup])]⟩
  let second : Listener := ⟨"Second", false, [], []⟩
  exact ⟨setup, ⟨setup.model.hooks, "linux"⟩, .withListeners [first, second], by decide +kernel⟩

end ReleaseRunner.Session
