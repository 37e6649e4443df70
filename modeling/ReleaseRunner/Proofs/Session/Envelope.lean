import ReleaseRunner.Proofs.Session.Closing

/-!
# The envelope of a run

Whatever happens in a session, the listeners are closed and then the log. `Passes` is what the
runner and the plugins keep to until then: registered listeners stay registered, they are closed
at most once for each registration and in order, the two acts of the envelope are not used up, and
an abort is the last thing that is noted. `execute_enveloped` puts the envelope around it.
-/

namespace ReleaseRunner.Session

open Config Files Log

/-! ## Up to the envelope -/

/-- What becomes of the listeners while the given entries are noted: once closed they stay as
they are, and until then further ones are registered behind them. Closing closes all of them
unless something aborts. -/
def RosterPasses (r : Roster) (new : List Entry) (r' : Roster) : Prop :=
  if r.closed then r'.closed = true ∧ r'.order = r.order ∧ World.closings new = []
  else r.order <+: r'.order ∧ World.closings new <+: r'.order ∧
    if r'.closed then World.aborts new = [] → World.closings new = r'.order
    else World.closings new = []

theorem RosterPasses.refl (r : Roster) {new : List Entry} (h : World.closings new = []) :
    RosterPasses r new r := by
  unfold RosterPasses
  rw [h]
  split
  · next hclosed => exact ⟨hclosed, rfl, rfl⟩
  · exact ⟨List.prefix_rfl, List.nil_prefix, rfl⟩

theorem RosterPasses.trans {r r' r'' : Roster} {new new' : List Entry}
    (h : RosterPasses r new r') (h' : RosterPasses r' new' r'') :
    RosterPasses r (new ++ new') r'' := by
  unfold RosterPasses at *
  rw [World.closings_append, World.aborts_append]
  cases hr : r.closed
  · rw [hr] at h
    obtain ⟨horder, hpre, hall⟩ := h
    cases hr' : r'.closed
    · -- open in between: nothing is closed before the second part
      rw [hr'] at h' hall
      obtain ⟨horder', hpre', hall'⟩ := h'
      rw [show World.closings new = [] from hall, List.nil_append]
      refine ⟨horder.trans horder', hpre', ?_⟩
      split
      · next hclosed =>
        rw [if_pos hclosed] at hall'
        exact fun hnone => hall' (List.append_eq_nil_iff.mp hnone).2
      · next hopen =>
        rw [if_neg hopen] at hall'
        exact hall'
    · -- closed by the first part: the second leaves it at that
      rw [hr'] at h' hall
      obtain ⟨hclosed, hsame, hnone'⟩ := h'
      rw [hnone', List.append_nil, hsame, hclosed]
      exact ⟨horder, hpre, fun hnone => hall (List.append_eq_nil_iff.mp hnone).1⟩
  · -- closed from the start
    rw [hr] at h
    obtain ⟨hclosed, hsame, hnone⟩ := h
    rw [hclosed] at h'
    obtain ⟨hclosed', hsame', hnone'⟩ := h'
    rw [hnone, hnone']
    exact ⟨hclosed', hsame'.trans hsame, rfl⟩

theorem Cleaned.rosterPasses {u v : World} {result : Except Failure Unit} {new : List Entry}
    (h : Cleaned u result v new) : RosterPasses u.roster new v.roster := by
  have hclosings := h.closings
  unfold RosterPasses
  rw [h.order, h.closed]
  split
  · next hclosed =>
    rw [if_pos hclosed] at hclosings
    exact ⟨rfl, rfl, hclosings⟩
  · next hopen =>
    rw [if_neg hopen] at hclosings
    exact ⟨List.prefix_rfl, hclosings⟩

/-- What the runner and the plugins keep to: the journal grows, an abort comes last in it, the
acts of the envelope are left to the envelope, and the listeners are closed at most once for each
registration. -/
structure Passed (u : World) (e : Option Failure) (v : World) (new : List Entry) : Prop where
  journal : v.journal = u.journal ++ new
  disciplined : Disciplined new e
  acts : ∀ act ∈ World.acts new, act ≠ .cleanup ∧ act ≠ .closeLog
  roster : RosterPasses u.roster new v.roster

/-- The law of all that goes on inside the envelope. -/
def Passes (u : World) (e : Option Failure) (v : World) : Prop :=
  ∃ new, Passed u e v new

/-- A world that differs in nothing that the law looks at. -/
private theorem passes_silent {u v : World} (hjournal : v.journal = u.journal)
    (hroster : v.roster = u.roster) : Passes u none v :=
  ⟨[], by rw [hjournal, List.append_nil], rfl, by simp [World.acts], by
    rw [hroster]
    exact .refl _ rfl⟩

private theorem passes_noted {u v : World} (entry : Entry) {e : Option Failure}
    (hjournal : v.journal = u.journal ++ [entry]) (hroster : v.roster = u.roster)
    (hdisc : Disciplined [entry] e) (hclosing : World.closings [entry] = [])
    (hact : ∀ act ∈ World.acts [entry], act ≠ .cleanup ∧ act ≠ .closeLog) : Passes u e v :=
  ⟨[entry], hjournal, hdisc, hact, by
    rw [hroster]
    exact .refl _ hclosing⟩

private theorem passes_roster {u v : World} (hjournal : v.journal = u.journal)
    (hroster : RosterPasses u.roster [] v.roster) : Passes u none v :=
  ⟨[], by rw [hjournal, List.append_nil], rfl, by simp [World.acts], hroster⟩

/-- Entries about closing hold no act. -/
theorem acts_of_isClosing {new : List Entry} (h : ∀ entry ∈ new, entry.isClosing = true) :
    World.acts new = [] := by
  refine List.filterMap_eq_nil_iff.mpr fun entry hentry => ?_
  have hclosing := h entry hentry
  cases entry with
  | act act => cases hclosing
  | _ => rfl

private theorem passes_cleanup (w : World) :
    Passes w (failure? (exec cleanup w).1) (exec cleanup w).2 := by
  obtain ⟨new, h⟩ := cleanup_cleans w
  exact ⟨new, h.journal, h.disciplined, by simp [acts_of_isClosing h.closing], h.rosterPasses⟩

private theorem passes_step {u v : World} {e : Option Failure} (h : Step u e v) :
    Passes u e v := by
  cases h with
  | raise f =>
    exact passes_noted (.raised f) rfl rfl (disciplined_raised f) rfl (by simp [World.acts])
  | record r => exact passes_noted (.record r _) rfl rfl rfl rfl (by simp [World.acts])
  | elsewhere r => exact passes_noted (.record r _) rfl rfl rfl rfl (by simp [World.acts])
  | call c hc =>
    refine passes_noted (.call c) rfl rfl rfl ?_ (by simp [World.acts])
    cases c with
    | close id name => cases hc
    | _ => rfl
  | make listener hclosed =>
    refine passes_roster rfl ?_
    unfold RosterPasses
    rw [hclosed]
    exact ⟨hclosed, rfl, rfl⟩
  | enlist listener hopen =>
    refine passes_roster rfl ?_
    unfold RosterPasses
    rw [hopen]
    refine ⟨List.prefix_append _ _, List.nil_prefix, ?_⟩
    rw [Roster.enlist_closed, hopen]
    rfl
  | enrol name hopen =>
    refine passes_roster rfl ?_
    unfold RosterPasses
    rw [hopen]
    refine ⟨List.prefix_append _ _, List.nil_prefix, ?_⟩
    rw [Roster.enrol_closed, hopen]
    rfl
  | policy name tolerant =>
    refine passes_roster rfl ?_
    unfold RosterPasses
    rw [Roster.setPolicy_order, Roster.setPolicy_closed]
    split
    · next hclosed => exact ⟨hclosed, rfl, rfl⟩
    · exact ⟨List.prefix_rfl, List.nil_prefix, rfl⟩
  | cleanup => exact passes_cleanup _
  | _ => exact passes_silent rfl rfl

theorem Passes.trans {u v w : World} {e : Option Failure} (h : Passes u none v)
    (h' : Passes v e w) : Passes u e w := by
  obtain ⟨new, h⟩ := h
  obtain ⟨new', h'⟩ := h'
  refine ⟨new ++ new', ?_, h.disciplined.append h'.disciplined, ?_, h.roster.trans h'.roster⟩
  · rw [h'.journal, h.journal, List.append_assoc]
  · intro act hact
    rw [World.acts_append, List.mem_append] at hact
    rcases hact with hact | hact
    · exact h.acts act hact
    · exact h'.acts act hact

private theorem passes_own {u v : World} {e : Option Failure} (h : RunnerStep u e v) :
    Passes u e v := by
  cases h with
  | mark act hcleanup hclose =>
    exact passes_noted (.act act) rfl rfl rfl rfl (by simp [World.acts, hcleanup, hclose])
  | _ => exact passes_silent rfl rfl

theorem Passes.pluginLaw : PluginLaw Passes where
  refl w := passes_silent rfl rfl
  fail w f h := ⟨[], by simp, (disciplined_of_not_abort h).mpr rfl, by simp [World.acts],
    .refl _ rfl⟩
  trans := Passes.trans
  recover h hf := by
    obtain ⟨new, h⟩ := h
    exact ⟨new, h.journal, (disciplined_of_not_abort hf).mp h.disciplined, h.acts, h.roster⟩
  step := passes_step
  heard w c h := by
    refine passes_noted (.call c) rfl rfl rfl ?_ (by simp [World.acts])
    cases c with
    | close id name => cases h
    | _ => rfl
  event w members := passes_noted (.event members) rfl rfl rfl rfl (by simp [World.acts])
  process w start := passes_noted (.process start) rfl rfl rfl rfl (by simp [World.acts])

theorem Passes.law : RunnerLaw Passes :=
  .ofPlugin Passes.pluginLaw passes_own fun h => by
    obtain ⟨new, h⟩ := h
    exact ⟨new, h.journal, h.disciplined, h.acts, h.roster⟩

/-! ## After the trace file was detached -/

/-- Where there is no trace file, none is opened and no record reaches it. -/
def Untraced (u : World) (_ : Option Failure) (v : World) : Prop :=
  u.log.trace = none → v.log.trace = none ∧ World.traced v.journal = World.traced u.journal

private theorem untraced_noted {u v : World} (entry : Entry) {e : Option Failure}
    (hjournal : v.journal = u.journal ++ [entry]) (hlog : v.log = u.log)
    (hentry : u.log.trace = none → World.traced [entry] = []) : Untraced u e v := by
  intro h
  rw [hlog, hjournal, World.traced_append, hentry h, List.append_nil]
  exact ⟨h, rfl⟩

private theorem untraced_cleanup (w : World) :
    Untraced w (failure? (exec cleanup w).1) (exec cleanup w).2 := by
  obtain ⟨new, h⟩ := cleanup_cleans w
  have hnone : World.traced new = [] := by
    refine List.filterMap_eq_nil_iff.mpr fun entry hentry => ?_
    have hclosing := h.closing entry hentry
    cases entry with
    | record record reach =>
      cases reach with
      | traced => cases hclosing
      | _ => rfl
    | _ => rfl
  intro htrace
  rw [h.journal, World.traced_append, hnone, List.append_nil, h.rest]
  exact ⟨htrace, rfl⟩

theorem Untraced.trans {u v w : World} {e e' e'' : Option Failure} (h : Untraced u e v)
    (h' : Untraced v e' w) : Untraced u e'' w := by
  intro htrace
  obtain ⟨htrace', hsame⟩ := h htrace
  obtain ⟨htrace'', hsame'⟩ := h' htrace'
  exact ⟨htrace'', hsame'.trans hsame⟩

theorem Untraced.law : PluginLaw Untraced where
  refl w h := ⟨h, rfl⟩
  fail w f _ h := ⟨h, rfl⟩
  trans := Untraced.trans
  recover h _ := h
  step h := by
    cases h with
    | raise f => exact untraced_noted (.raised f) rfl rfl fun _ => rfl
    | record r =>
      refine untraced_noted (.record r _) rfl rfl fun htrace => ?_
      unfold World.reach
      rw [htrace]
      split <;> rfl
    | elsewhere r => exact untraced_noted (.record r _) rfl rfl fun _ => rfl
    | call c => exact untraced_noted (.call c) rfl rfl fun _ => rfl
    | closeLog => exact fun _ => ⟨rfl, rfl⟩
    | cleanup => exact untraced_cleanup _
    | _ => exact fun htrace => ⟨htrace, rfl⟩
  heard w c _ := untraced_noted (.call c) rfl rfl fun _ => rfl
  event w members := untraced_noted (.event members) rfl rfl fun _ => rfl
  process w start := untraced_noted (.process start) rfl rfl fun _ => rfl

/-! ## The envelope -/

/-- What a run of a workflow leaves behind, whatever its end. -/
structure Enveloped (w : World) (result : Except Failure Unit) (v : World) (new : List Entry) :
    Prop where
  journal : v.journal = w.journal ++ new
  /-- The listeners are closed and none is registered any more. -/
  closed : v.roster.closed = true ∧ v.roster.registered = []
  /-- The log is closed and has no trace file. -/
  detached : v.log.closed = true ∧ v.log.trace = none
  /-- The runner closes the listeners once and the log once, in this order, and nothing else
  comes after that. -/
  acts : ∃ before, World.acts new = before ++ [.cleanup, .closeLog] ∧
    .cleanup ∉ before ∧ .closeLog ∉ before
  /-- The listeners are closed in the order of registration, none more often than it is registered,
  and not again if they were closed before the run. -/
  inOrder : World.closings new <+: v.roster.order
  once : ∀ id, (World.closings new).count id ≤ v.roster.order.count id
  never : w.roster.closed = true → World.closings new = []
  /-- Every registered listener is closed unless something aborts. -/
  all : w.roster.closed = false → World.aborts new = [] → World.closings new = v.roster.order
  /-- Whatever is done later, no record reaches the trace file. -/
  untraced : ∀ later : List Action,
    World.traced (exec (perform later) v).2.journal = World.traced v.journal
  /-- The run ends with an abort just if there was one: the last, which is the only one unless
  closing the listeners raised another. -/
  abort : (failure? result).filter Failure.isAbort = (World.aborts new).getLast?
  /-- After an abort there are only listeners being closed and the two acts of the envelope. -/
  after : ∀ before f rest, new = before ++ .raised f :: rest → f.isAbort = true →
    ∀ entry ∈ rest, entry.isClosing = true ∨ entry = .act .cleanup ∨ entry = .act .closeLog

/-- The world after the log was closed as the last act. -/
def World.sealed (w : World) : World :=
  { w.noted (.act .closeLog) with log := { w.log with closed := true, trace := none } }

/-- The listeners are closed after the session, whatever came of it, and then the log. -/
theorem exec_execute (setup : Setup) (runner : HookRunner) (items : List Item) (w : World) :
    exec (execute setup runner items) w =
      let session := exec (runSession setup runner items) w
      let closing := exec cleanup (session.2.noted (.act .cleanup))
      match closing.1 with
      | .ok () => (session.1, closing.2.sealed)
      | .error f => (.error f, closing.2.sealed) := by
  unfold execute
  rw [exec_ensuring, exec_ensuring]
  have hclean : exec (do mark .cleanup; cleanup) (exec (runSession setup runner items) w).2 =
      exec cleanup ((exec (runSession setup runner items) w).2.noted (.act .cleanup)) := rfl
  have hclose : ∀ v, exec (do mark .closeLog; closeLog) v = (.ok (), v.sealed) := fun _ => rfl
  rw [hclean, hclose]
  dsimp only
  rcases exec cleanup ((exec (runSession setup runner items) w).2.noted (.act .cleanup))
    with ⟨f | _, v⟩ <;> rfl

/-- Whatever comes of a run, it leaves the world in which both were closed. -/
theorem exec_execute_world (setup : Setup) (runner : HookRunner) (items : List Item) (w : World) :
    let session := exec (runSession setup runner items) w
    (exec (execute setup runner items) w).2 =
      (exec cleanup (session.2.noted (.act .cleanup))).2.sealed := by
  rw [exec_execute]
  dsimp only
  split <;> rfl

/-- The journal of the envelope itself. -/
private def closingEntries (closing : List Entry) : List Entry :=
  .act .cleanup :: closing ++ [.act .closeLog]

private theorem mem_closingEntries {closing : List Entry}
    (h : ∀ entry ∈ closing, entry.isClosing = true) {entry : Entry}
    (hentry : entry ∈ closingEntries closing) :
    entry.isClosing = true ∨ entry = .act .cleanup ∨ entry = .act .closeLog := by
  simp only [closingEntries, List.cons_append, List.mem_cons, List.mem_append,
    List.not_mem_nil, or_false] at hentry
  rcases hentry with rfl | hentry | rfl
  · exact .inr (.inl rfl)
  · exact .inl (h entry hentry)
  · exact .inr (.inr rfl)

private theorem closings_closingEntries (closing : List Entry) :
    World.closings (closingEntries closing) = World.closings closing := by
  simp [closingEntries, World.closings]

private theorem aborts_closingEntries (closing : List Entry) :
    World.aborts (closingEntries closing) = World.aborts closing := by
  simp [closingEntries, World.aborts]

private theorem acts_closingEntries {closing : List Entry}
    (h : ∀ entry ∈ closing, entry.isClosing = true) :
    World.acts (closingEntries closing) = [.cleanup, .closeLog] := by
  have hnone := acts_of_isClosing h
  unfold World.acts at hnone
  simp [closingEntries, World.acts, hnone]

/-- In a closed roster each registration was closed at most once. -/
private theorem RosterPasses.closings {r r' : Roster} {new : List Entry}
    (h : RosterPasses r new r') (hclosed : r'.closed = true) :
    World.closings new <+: r'.order ∧ (r.closed = true → World.closings new = []) ∧
      (r.closed = false → World.aborts new = [] → World.closings new = r'.order) := by
  unfold RosterPasses at h
  rw [hclosed] at h
  cases hr : r.closed
  · rw [hr] at h
    obtain ⟨-, hpre, hall⟩ := h
    exact ⟨hpre, fun h => (by cases h), fun _ => hall⟩
  · rw [hr] at h
    obtain ⟨-, -, hnone⟩ := h
    rw [hnone]
    exact ⟨List.nil_prefix, fun _ => rfl, fun h => (by cases h)⟩

/-- The failure of closing the listeners comes before that of the session. -/
private def overruled (session closing : Except Failure Unit) : Except Failure Unit :=
  match closing with
  | .ok () => session
  | .error f => .error f

private theorem abort_overruled {session closing : Except Failure Unit} {new new' : List Entry}
    (h : Disciplined new (failure? session)) (h' : Disciplined new' (failure? closing))
    (habort : (failure? closing).filter Failure.isAbort = failure? closing) :
    (failure? (overruled session closing)).filter Failure.isAbort =
      (World.aborts (new ++ new')).getLast? := by
  rw [World.aborts_append, h.aborts, h'.aborts, habort]
  rcases closing with f | _
  · show (some f).filter _ = _
    simpa using habort
  · show (failure? session).filter _ = _
    cases (failure? session).filter Failure.isAbort <;> rfl

/-- After an abort there are only entries of the envelope: one in the session is the last of
the session, and one of a listener that is closed is among those entries itself. -/
private theorem isClosing_after_abort {new closing : List Entry} {e : Option Failure}
    (hsession : Disciplined new e) (hclosing : ∀ entry ∈ closing, entry.isClosing = true)
    {before rest : List Entry} {f : Failure}
    (hnew : new ++ closingEntries closing = before ++ .raised f :: rest) (hf : f.isAbort = true)
    {entry : Entry} (hentry : entry ∈ rest) :
    entry.isClosing = true ∨ entry = .act .cleanup ∨ entry = .act .closeLog := by
  apply mem_closingEntries hclosing
  rcases List.append_eq_append_iff.mp hnew with ⟨more, -, hmore⟩ | ⟨more, hnew', hrest⟩
  · -- raised while the listeners were closed
    rw [hmore]
    simp [hentry]
  · -- raised in the session
    cases more with
    | nil =>
      rw [List.nil_append] at hrest
      rw [← hrest]
      exact List.mem_cons_of_mem _ hentry
    | cons raised more =>
      rw [List.cons_append] at hrest
      obtain ⟨rfl, rfl⟩ := List.cons.inj hrest
      have hlast := hsession.last hnew' hf
      rw [hlast, List.nil_append] at hentry
      exact hentry

/-- A session, the listeners closed after it, and the log closed after that. -/
private theorem enveloped_of_parts {w u v : World} {session closing : Except Failure Unit}
    {new new' : List Entry} (hsession : Passed w (failure? session) u new)
    (hclosing : Cleaned (u.noted (.act .cleanup)) closing v new') :
    Enveloped w (overruled session closing) v.sealed (new ++ closingEntries new') := by
  have hclosed : v.sealed.roster.closed = true := hclosing.closed
  have hroster := hsession.roster.trans hclosing.rosterPasses
  obtain ⟨hpre, hnever, hall⟩ := hroster.closings hclosing.closed
  -- the two acts of the envelope count neither as closings nor as aborts
  have hclosings : World.closings (new ++ closingEntries new') = World.closings (new ++ new') := by
    rw [World.closings_append, closings_closingEntries, World.closings_append]
  have haborts : World.aborts (new ++ closingEntries new') = World.aborts (new ++ new') := by
    rw [World.aborts_append, aborts_closingEntries, World.aborts_append]
  refine { journal := ?_, closed := ⟨hclosed, ?_⟩, detached := ⟨rfl, rfl⟩, acts := ?_,
           inOrder := ?_, once := ?_, never := ?_, all := ?_, untraced := ?_, abort := ?_,
           after := ?_ }
  · show v.journal ++ [_] = _
    rw [hclosing.journal]
    show (u.journal ++ [_]) ++ new' ++ [_] = _
    rw [hsession.journal]
    simp [closingEntries]
  · unfold Roster.registered
    rw [if_pos hclosed]
  · refine ⟨World.acts new, ?_, fun h => (hsession.acts _ h).1 rfl, fun h =>
      (hsession.acts _ h).2 rfl⟩
    rw [World.acts_append, acts_closingEntries hclosing.closing]
  · rw [hclosings]
    exact hpre
  · rw [hclosings]
    exact hpre.sublist.count_le
  · rw [hclosings]
    exact hnever
  · rw [hclosings, haborts]
    exact hall
  · intro later
    exact (Untraced.law.perform later v.sealed rfl).2
  · rw [haborts]
    exact abort_overruled hsession.disciplined hclosing.disciplined hclosing.abort
  · intro before f rest hnew hf entry hentry
    exact isClosing_after_abort hsession.disciplined hclosing.closing hnew hf hentry

/-- However a run ends, the listeners are closed after it, once for each registration, and then the
log, and an abort passes through everything on its way out. -/
theorem execute_enveloped (setup : Setup) (runner : HookRunner) (items : List Item) (w : World) :
    ∃ result v new, exec (execute setup runner items) w = (result, v) ∧
      Enveloped w result v new := by
  obtain ⟨new, hsession⟩ := Passes.law.runSession setup runner items w
  obtain ⟨new', hclosing⟩ :=
    cleanup_cleans ((exec (runSession setup runner items) w).2.noted (.act .cleanup))
  refine ⟨_, _, _, ?_, enveloped_of_parts hsession hclosing⟩
  rw [exec_execute]
  dsimp only
  unfold overruled
  split <;> rfl

/-- A listener that a step registers once more is closed twice, although nothing fails. -/
theorem execute_closesTwice :
    ∃ (setup : Setup) (item : Item) (w : World),
      w.roster.registered.map (·.name) = ["Watcher"] ∧ w.journal = [] ∧
      let run := exec (execute setup (.on setup.model.hooks none) [item]) w
      run.1 = .ok () ∧ run.2.roster.order = [0, 0] ∧ World.closings run.2.journal = [0, 0] := by
  let setup : Setup := {
    model := ⟨⟨"demo", "1.0.0", "SEMVER"⟩, ⟨true, [], [], [], []⟩, []⟩
    settings := ⟨.info, ⟨.here, ["out"]⟩, false, ⟨.here, ["release.json"]⟩⟩ }
  let item : Item := ⟨.deploy, some ⟨"deploy", [.enrol "Watcher"]⟩⟩
  let w : World := .withListeners [⟨"Watcher", false, [], []⟩]
  refine ⟨setup, item, w, rfl, rfl, ?_, ?_, ?_⟩
  · decide +kernel
  · decide +kernel
  · decide +kernel

end ReleaseRunner.Session
