import ReleaseRunner.Proofs.Config.Validation
import ReleaseRunner.Proofs.Session.Following
import ReleaseRunner.Proofs.Text.Words

/-!
# How hooks end

What comes of hooks, and which processes they start, is told by their commands, by what the programs
do and by which hooks are tolerated (`HookRunner.course`). Apart from that they only write into the
journal.

The main statement is `runHooks_ends`: the hooks of a configuration that passed its check end well,
or with the first hook that does not. That is one whose failure is not tolerated, or whose command
cannot be split into words, or whose process fails in a way of its own. The last two are no failures
of a hook, so they are not tolerated either.
-/

namespace ReleaseRunner.Session

open Config Log Text

variable {α β : Type}

/-! ## What hooks change -/

/-- The entry is noted while hooks are run: a record, or the start of a process. -/
def Entry.isOfHooks : Entry → Bool
  | .record _ _ => true
  | .process _ => true
  | .call (.process _) => true
  | _ => false

/-- On the way from one world to another the processes are started, and nothing but the journal
changes. -/
structure Starts (u : World) (starts : List ProcessStart) (v : World) : Prop where
  rest : v = { u with journal := v.journal }
  journal : ∃ new, v.journal = u.journal ++ new ∧ (∀ entry ∈ new, entry.isOfHooks = true) ∧
    World.processes new = starts

theorem Starts.refl (u : World) : Starts u [] u := ⟨rfl, [], by simp, by simp, rfl⟩

theorem World.processes_append (a b : List Entry) :
    World.processes (a ++ b) = World.processes a ++ World.processes b :=
  List.filterMap_append

theorem Starts.trans {u v w : World} {starts starts' : List ProcessStart} (h : Starts u starts v)
    (h' : Starts v starts' w) : Starts u (starts ++ starts') w := by
  obtain ⟨new, hnew, hhooks, rfl⟩ := h.journal
  obtain ⟨new', hnew', hhooks', rfl⟩ := h'.journal
  refine ⟨by rw [h'.rest, h.rest], new ++ new', ?_, fun entry hentry => ?_,
    World.processes_append new new'⟩
  · rw [hnew', hnew, List.append_assoc]
  · rcases List.mem_append.mp hentry with hentry | hentry
    · exact hhooks entry hentry
    · exact hhooks' entry hentry

theorem Starts.noted (u : World) (entry : Entry) (h : entry.isOfHooks = true) :
    Starts u (World.processes [entry]) (u.noted entry) :=
  ⟨rfl, [entry], rfl, by simpa using h, rfl⟩

theorem Starts.processes {u v : World} {starts : List ProcessStart} (h : Starts u starts v) :
    World.processes v.journal = World.processes u.journal ++ starts := by
  obtain ⟨new, hnew, -, rfl⟩ := h.journal
  rw [hnew, World.processes_append]

/-- In the world, the computation ends so and starts the processes. -/
def Runs (x : Run α) (u : World) (result : Except Failure α) (starts : List ProcessStart) : Prop :=
  ∃ v, exec x u = (result, v) ∧ Starts u starts v

namespace Runs

variable {u : World} {starts : List ProcessStart}

theorem pure (a : α) : Runs (Pure.pure a) u (.ok a) [] := ⟨u, rfl, .refl u⟩

theorem throw (f : Failure) : Runs (MonadExcept.throw f : Run α) u (.error f) [] :=
  ⟨u, rfl, .refl u⟩

theorem bind {x : Run α} {f : α → Run β} {a : α} {result : Except Failure β}
    {starts' : List ProcessStart} (hx : Runs x u (.ok a) starts)
    (hf : ∀ v, Starts u starts v → Runs (f a) v result starts') :
    Runs (x >>= f) u result (starts ++ starts') := by
  obtain ⟨v, hv, hstarts⟩ := hx
  obtain ⟨w, hw, hstarts'⟩ := hf v hstarts
  exact ⟨w, by rw [exec_bind_ok hv, hw], hstarts.trans hstarts'⟩

theorem bind_error {x : Run α} {f : α → Run β} {e : Failure}
    (hx : Runs x u (.error e) starts) : Runs (x >>= f) u (.error e) starts := by
  obtain ⟨v, hv, hstarts⟩ := hx
  exact ⟨v, exec_bind_error hv, hstarts⟩

/-- Logging starts nothing. -/
theorem say {level : Level} {message : String} {values : List Json} {extra : Members}
    {traceback : Bool} (h : Record.refusal? extra = none) :
    Runs (Session.say level message values extra traceback) u (.ok ()) [] := by
  rcases exec_say_untaken h level message values traceback u with hnone | ⟨record, -, hrecord⟩
  · exact ⟨u, hnone, .refl u⟩
  · exact ⟨_, hrecord, .noted u (.record record _) rfl⟩

theorem inform {message : String} {values : List Json} {extra : Members}
    (h : Record.refusal? extra = none) :
    Runs (Session.inform message values extra) u (.ok ()) [] := say h

theorem trace (failure : Failure) : Runs (Session.trace failure) u (.ok ()) [] := say rfl

/-- Logging starts nothing, however often. -/
theorem forM_say {f : β → Run PUnit} (h : ∀ b u, Runs (f b) u (.ok ⟨⟩) []) :
    ∀ (l : List β) (u : World), Runs (l.forM f) u (.ok ⟨⟩) []
  | [], _ => .pure _
  | b :: l, u => (h b u).bind fun v _ => forM_say h l v

end Runs

/-! ## What comes of a hook -/

/-- The process that a hook starts, if its command has words. -/
def HookRunner.start? (runner : HookRunner) (environment : List (String × String))
    (event : Event) (hook : Hook) : Option ProcessStart :=
  match words hook.command with
  | .ok (name :: rest) =>
    some ⟨name :: rest, hookEnvironment environment runner.hooks event, hook.timeout⟩
  | _ => none

/-- The failure of a program's own, which is none of a hook. -/
def Program.own? : Program → Option Failure
  | .fails failure _ => some failure
  | _ => none

theorem Program.isAbort_of_own? {program : Program} {f : Failure} (h : program.own? = some f) :
    f.isAbort = false := by
  cases program with
  | fails failure ordinary =>
    cases h
    exact ordinary
  | _ => cases h

/-- What is told of a program that did not end well. -/
def Program.failure? (hook : Hook) : Program → Option HookFailure
  | .fails _ _ => none
  | .timesOut => some ⟨s!"Hook timed out after {timeoutText hook.timeout}s: {hook.command}", none⟩
  | .unstartable text => some ⟨s!"Hook could not be started: {hook.command} ({text})", none⟩
  | .exits code _ _ =>
    if code = 0 then none else some ⟨s!"Hook exited with code {code}: {hook.command}", some code⟩

/-- How a hook ends whose process was started. -/
def Program.verdict (hook : Hook) (program : Program) : Except Failure Unit :=
  match program.own?, program.failure? hook with
  | some failure, _ => .error failure
  | none, none => .ok ()
  | none, some failure =>
    if hook.tolerant then .ok ()
    else .error (.plain (.hook hook.command failure.exitCode) failure.problem)

/-- What a hook fails with whose command has no words to start. -/
def wordless (hook : Hook) : Failure :=
  match words hook.command with
  | .error e => .plain .value e.message
  | .ok _ => .plain .missingItem "list index out of range"

/-- How a hook ends, after the given processes were started. -/
def HookRunner.verdict (runner : HookRunner) (programs : Programs)
    (environment : List (String × String)) (event : Event) (past : List ProcessStart)
    (hook : Hook) : Except Failure Unit :=
  match runner.start? environment event hook with
  | some start => (programs.answer past start).verdict hook
  | none => .error (wordless hook)

theorem runs_startProgram {start : ProcessStart} (h : start.words ≠ []) (u : World) :
    Runs (startProgram start) u (.ok (u.programs.answer (World.processes u.journal) start))
      [start] := by
  unfold startProgram
  split
  · next hnil => exact absurd hnil h
  · next name _ _ =>
    exact ⟨_, rfl, (Starts.noted u (.call (.process name)) rfl).trans
      (.noted _ (.process start) rfl)⟩

theorem runs_logOutput (hook : Hook) (output : String) (u : World) :
    Runs (logOutput hook output) u (.ok ()) [] :=
  .forM_say (fun _ _ => .say rfl) _ u

theorem runs_logErrors (hook : Hook) (errors : String) (u : World) :
    Runs (logErrors hook errors) u (.ok ()) [] := by
  unfold logErrors
  split
  · exact .pure ()
  · exact .say rfl

/-- What an exited program printed is logged, and its code is told. -/
theorem runs_exits (hook : Hook) (code : Int) (output errors : String) (u : World) :
    Runs (do
      if hook.verbose then logOutput hook output
      if code = 0 then return none
      logErrors hook errors
      return some ⟨s!"Hook exited with code {code}: {hook.command}", some code⟩) u
      (.ok (Program.failure? hook (.exits code output errors))) [] := by
  have hcode : ∀ v, Runs (do
      if code = 0 then return none
      logErrors hook errors
      return some ⟨s!"Hook exited with code {code}: {hook.command}", some code⟩) v
      (.ok (Program.failure? hook (.exits code output errors))) [] := by
    intro v
    by_cases hzero : code = 0
    · rw [Program.failure?, if_pos hzero, if_pos hzero]
      exact .pure none
    · rw [Program.failure?, if_neg hzero, if_neg hzero]
      exact (runs_logErrors hook errors v).bind fun _ _ => .pure _
  dsimp only
  split
  · exact (runs_logOutput hook output u).bind fun v _ => hcode v
  · exact hcode u

/-- What the process of a hook gives: what is told of its program, or the failure of its own. -/
def Program.given (hook : Hook) (program : Program) : Except Failure (Option HookFailure) :=
  match program.own? with
  | some failure => .error failure
  | none => .ok (program.failure? hook)

theorem runs_runProcess (hook : Hook) {start : ProcessStart} (h : start.words ≠ []) (u : World) :
    Runs (runProcess hook start) u
      ((u.programs.answer (World.processes u.journal) start).given hook) [start] := by
  refine (runs_startProgram h u).bind fun v _ => ?_
  cases u.programs.answer (World.processes u.journal) start with
  | timesOut => exact .pure _
  | unstartable text => exact .pure _
  | fails failure => exact .throw failure
  | exits code output errors => exact runs_exits hook code output errors v

theorem Starts.environment {u v : World} {starts : List ProcessStart} (h : Starts u starts v) :
    v.environment = u.environment := by
  rw [h.rest]

theorem Starts.programs {u v : World} {starts : List ProcessStart} (h : Starts u starts v) :
    v.programs = u.programs := by
  rw [h.rest]

/-- What is told of a program is a warning or a failure of the hook. -/
theorem runs_verdict (hook : Hook) {program : Program} (hown : program.own? = none) (u : World) :
    Runs (match program.failure? hook with
      | none => pure ()
      | some failure =>
        if hook.tolerant then say .warning failure.problem [] [] false
        else throw (.plain (.hook hook.command failure.exitCode) failure.problem)) u
      (program.verdict hook) [] := by
  unfold Program.verdict
  rw [hown]
  cases program.failure? hook with
  | none => exact .pure ()
  | some failure =>
    dsimp only
    split
    · exact .say rfl
    · exact .throw _

/-- A hook ends as its program has it, and starts its process if it can. -/
theorem runs_runHook (runner : HookRunner) (event : Event) (hook : Hook) (u : World) :
    Runs (runHook runner event hook) u
      (runner.verdict u.programs u.environment event (World.processes u.journal) hook)
      (runner.start? u.environment event hook).toList := by
  refine (Runs.inform rfl).bind fun v hv => ?_
  -- the hook is started in a world that tells the same of programs and processes
  rw [← hv.programs, ← hv.environment, show World.processes u.journal = World.processes v.journal by
    rw [hv.processes, List.append_nil]]
  unfold HookRunner.verdict HookRunner.start? wordless
  cases words hook.command with
  | error e => exact .throw _
  | ok ws =>
    cases ws with
    | nil => exact ⟨v, rfl, .refl v⟩
    | cons name rest =>
      let start : ProcessStart :=
        ⟨name :: rest, hookEnvironment v.environment runner.hooks event, hook.timeout⟩
      have hname : start.words ≠ [] := List.cons_ne_nil _ _
      obtain ⟨v', hv', hstarts⟩ := runs_runProcess hook hname v
      unfold Program.given at hv'
      dsimp only
      cases hown : (v.programs.answer (World.processes v.journal) start).own? with
      | some failure =>
        rw [hown] at hv'
        refine ⟨v', ?_, hstarts⟩
        rw [exec_bind_ok (exec_get v), exec_bind_error hv']
        unfold Program.verdict
        rw [hown]
      | none =>
        rw [hown] at hv'
        obtain ⟨w, hw, hstarts'⟩ := runs_verdict hook hown v'
        refine ⟨w, ?_, hstarts.trans hstarts'⟩
        rw [exec_bind_ok (exec_get v), exec_bind_ok hv']
        exact hw

/-! ## The course of hooks -/

/-- How hooks end that are run one after the other, after the given processes were started, and the
processes that they start. -/
def HookRunner.course (runner : HookRunner) (programs : Programs)
    (environment : List (String × String)) (event : Event) :
    List ProcessStart → List Hook → Except Failure Unit × List ProcessStart
  | _, [] => (.ok (), [])
  | past, hook :: hooks =>
    let starts := (runner.start? environment event hook).toList
    match runner.verdict programs environment event past hook with
    | .error failure => (.error failure, starts)
    | .ok () =>
      let rest := runner.course programs environment event (past ++ starts) hooks
      (rest.1, starts ++ rest.2)

section
variable {runner : HookRunner} {programs : Programs} {environment : List (String × String)}
  {event : Event} {past : List ProcessStart} {hook : Hook}

/-- A hook that fails is the last one. -/
theorem course_of_error {failure : Failure}
    (h : runner.verdict programs environment event past hook = .error failure)
    (hooks : List Hook) :
    runner.course programs environment event past (hook :: hooks) =
      (.error failure, (runner.start? environment event hook).toList) := by
  rw [HookRunner.course, h]

/-- After a hook that does not fail come the others. -/
theorem course_of_ok (h : runner.verdict programs environment event past hook = .ok ())
    (hooks : List Hook) :
    runner.course programs environment event past (hook :: hooks) =
      ((runner.course programs environment event
          (past ++ (runner.start? environment event hook).toList) hooks).1,
        (runner.start? environment event hook).toList ++
        (runner.course programs environment event
          (past ++ (runner.start? environment event hook).toList) hooks).2) := by
  rw [HookRunner.course, h]

end

theorem runs_forM_runHook (runner : HookRunner) (event : Event) :
    ∀ (hooks : List Hook) (u : World), Runs (hooks.forM (runHook runner event)) u
      (runner.course u.programs u.environment event (World.processes u.journal) hooks).1
      (runner.course u.programs u.environment event (World.processes u.journal) hooks).2 := by
  intro hooks
  induction hooks with
  | nil => exact fun _ => .pure _
  | cons hook hooks ih =>
    intro u
    have hhook := runs_runHook runner event hook u
    show Runs (runHook runner event hook >>= fun _ => hooks.forM (runHook runner event)) u _ _
    cases hverdict : runner.verdict u.programs u.environment event (World.processes u.journal) hook
      with
    | error failure =>
      rw [hverdict] at hhook
      rw [course_of_error hverdict]
      exact hhook.bind_error
    | ok =>
      rw [hverdict] at hhook
      rw [course_of_ok hverdict]
      refine hhook.bind fun v hv => ?_
      have hrest := ih v
      rw [hv.programs, hv.environment, hv.processes] at hrest
      exact hrest

/-- The hooks that are run for an event: the selected ones, and none while hooks are disabled. -/
def HookRunner.due (runner : HookRunner) (event : Event) : List Hook :=
  if runner.hooks.enabled then runner.select event else []

/-- The hooks of an event take their course. -/
theorem runs_runHooks (runner : HookRunner) (event : Event) (u : World) :
    Runs (runHooks runner event) u
      (runner.course u.programs u.environment event (World.processes u.journal)
        (runner.due event)).1
      (runner.course u.programs u.environment event (World.processes u.journal)
        (runner.due event)).2 := by
  unfold runHooks HookRunner.due
  cases runner.hooks.enabled with
  | false => exact .pure ()
  | true =>
    simp only [Bool.not_true, Bool.false_eq_true, if_false, if_true]
    by_cases hempty : (runner.select event).isEmpty = true
    · rw [if_pos hempty, List.isEmpty_iff.mp hempty]
      exact .pure ()
    · rw [if_neg hempty]
      refine (Runs.inform rfl).bind fun v hv => ?_
      have hrest := runs_forM_runHook runner event (runner.select event) v
      rw [hv.programs, hv.environment, hv.processes, List.append_nil] at hrest
      exact hrest

/-- No hook ends with an abort. -/
theorem isAbort_of_verdict {runner : HookRunner} {programs : Programs}
    {environment : List (String × String)} {event : Event} {past : List ProcessStart}
    {hook : Hook} {f : Failure}
    (h : runner.verdict programs environment event past hook = .error f) :
    f.isAbort = false := by
  unfold HookRunner.verdict Program.verdict wordless at h
  split at h
  · split at h
    · next hown =>
      cases h
      exact Program.isAbort_of_own? hown
    · cases h
    · split at h
      · cases h
      · cases h
        rfl
  · cases h
    split <;> rfl

theorem isAbort_of_course {runner : HookRunner} {programs : Programs}
    {environment : List (String × String)} {event : Event} {f : Failure} :
    ∀ {hooks : List Hook} {past : List ProcessStart},
      (runner.course programs environment event past hooks).1 = .error f → f.isAbort = false := by
  intro hooks
  induction hooks with
  | nil =>
    intro past h
    cases h
  | cons hook hooks ih =>
    intro past h
    cases hverdict : runner.verdict programs environment event past hook with
    | error failure =>
      rw [course_of_error hverdict] at h
      cases h
      exact isAbort_of_verdict hverdict
    | ok =>
      rw [course_of_ok hverdict] at h
      exact ih h

/-- Hooks whose failure is logged take their course without failing. -/
theorem runs_attemptHooks (runner : HookRunner) (event : Event) (u : World) :
    Runs (attemptHooks runner event) u
      (.ok (failure? (runner.course u.programs u.environment event (World.processes u.journal)
        (runner.due event)).1))
      (runner.course u.programs u.environment event (World.processes u.journal)
        (runner.due event)).2 := by
  obtain ⟨v, hv, hstarts⟩ := runs_runHooks runner event u
  rcases hresult : (runner.course u.programs u.environment event (World.processes u.journal)
    (runner.due event)).1 with f | _
  · rw [hresult] at hv
    have hlogged : Runs (do
        say .error "Unexpected error while running hooks" [] [] false
        trace f
        return some f) v (.ok (some f)) [] :=
      (Runs.say rfl).bind fun _ _ => (Runs.trace f).bind fun _ _ => .pure _
    obtain ⟨w, hw, hstarts'⟩ := hlogged
    refine ⟨w, ?_, ?_⟩
    · unfold attemptHooks
      rw [exec_bind_ok (exec_attempt_caught hv (isAbort_of_course hresult))]
      exact hw
    · have hboth := hstarts.trans hstarts'
      rwa [List.append_nil] at hboth
  · rw [hresult] at hv
    refine ⟨v, ?_, hstarts⟩
    unfold attemptHooks
    rw [exec_bind_ok (exec_attempt_ok hv)]
    rfl

theorem runs_discard (runner : HookRunner) (event : Event) (u : World) :
    Runs (discard (attemptHooks runner event)) u (.ok ())
      ((runner.course u.programs u.environment event (World.processes u.journal)
        (runner.due event)).2 ++ []) :=
  (runs_attemptHooks runner event u).bind fun _ _ => .pure ()

/-- The course of hooks only depends on what comes of the processes that they start. -/
theorem HookRunner.course_congr {runner runner' : HookRunner} {programs programs' : Programs}
    {environment : List (String × String)} {event : Event}
    (hstart : ∀ hook,
      runner'.start? environment event hook = runner.start? environment event hook) :
    ∀ (hooks : List Hook) (past : List ProcessStart),
      (∀ before start after,
        (runner.course programs environment event past hooks).2 = before ++ start :: after →
        programs'.answer (past ++ before) start = programs.answer (past ++ before) start) →
      runner'.course programs' environment event past hooks =
        runner.course programs environment event past hooks := by
  intro hooks
  induction hooks with
  | nil => exact fun _ _ => rfl
  | cons hook hooks ih =>
    intro past h
    -- the process of the hook comes first, so its program is known to do the same
    have hverdict : runner'.verdict programs' environment event past hook =
        runner.verdict programs environment event past hook := by
      unfold verdict
      rw [hstart]
      cases hprocess : runner.start? environment event hook with
      | none => rfl
      | some start =>
        have hanswer :
            programs'.answer (past ++ []) start = programs.answer (past ++ []) start := by
          cases hfirst : runner.verdict programs environment event past hook with
          | error failure =>
            exact h [] start [] (by rw [course_of_error hfirst, hprocess]; rfl)
          | ok => exact h [] start _ (by rw [course_of_ok hfirst, hprocess]; rfl)
        rw [List.append_nil] at hanswer
        dsimp only
        rw [hanswer]
    cases hfirst : runner.verdict programs environment event past hook with
    | error failure =>
      rw [course_of_error hfirst, course_of_error (hverdict.trans hfirst), hstart]
    | ok =>
      rw [course_of_ok hfirst] at h
      rw [course_of_ok hfirst, course_of_ok (hverdict.trans hfirst), hstart, ih]
      intro before start after hrest
      rw [List.append_assoc]
      exact h _ start after (by rw [hrest, List.append_assoc])

/-! ## How hooks end -/

/-- The command of a hook can be split into words. -/
def Splits (hook : Hook) : Prop := ∃ ws, words hook.command = .ok ws

/-- The hook asks for a process, after the given ones were asked for, and this comes of it. -/
def HookRunner.Asks (runner : HookRunner) (event : Event) (w : World) (past : List ProcessStart)
    (hook : Hook) (program : Program) : Prop :=
  ∃ start, runner.start? w.environment event hook = some start ∧
    w.programs.answer past start = program

/-- How a hook ends, after the given processes were asked for: well, which it also does with a
failure that is tolerated, with what its program did if that is not tolerated, with what its process
failed with by itself, or with a command that cannot be split. -/
inductive HookEnds (runner : HookRunner) (event : Event) (w : World) (past : List ProcessStart)
    (hook : Hook) : Option Failure → Prop
  | well {program : Program} (hasks : runner.Asks event w past hook program)
      (hown : program.own? = none) (h : program.failure? hook = none ∨ hook.tolerant = true) :
      HookEnds runner event w past hook none
  | badly {program : Program} {failure : HookFailure}
      (hasks : runner.Asks event w past hook program) (htolerant : hook.tolerant = false)
      (hfailure : program.failure? hook = some failure) :
      HookEnds runner event w past hook
        (some (.plain (.hook hook.command failure.exitCode) failure.problem))
  | own {program : Program} {failure : Failure} (hasks : runner.Asks event w past hook program)
      (hown : program.own? = some failure) : HookEnds runner event w past hook (some failure)
  | unsplit {e : WordsError} (he : words hook.command = .error e) :
      HookEnds runner event w past hook (some (.plain .value e.message))

/-- How hooks end that are run one after the other: all of them well, or up to the first that does
not. Each is run after the processes that those before it asked for. -/
inductive HooksEnd (runner : HookRunner) (event : Event) (w : World) :
    List ProcessStart → List Hook → Option Failure → Prop
  | done {past : List ProcessStart} : HooksEnd runner event w past [] none
  | next {past : List ProcessStart} {hook : Hook} {hooks : List Hook} {failure : Option Failure}
      (hhook : HookEnds runner event w past hook none)
      (rest : HooksEnd runner event w
        (past ++ (runner.start? w.environment event hook).toList) hooks failure) :
      HooksEnd runner event w past (hook :: hooks) failure
  | stopped {past : List ProcessStart} {hook : Hook} {hooks : List Hook} {failure : Failure}
      (hhook : HookEnds runner event w past hook (some failure)) :
      HooksEnd runner event w past (hook :: hooks) (some failure)

/-- The processes that the hooks may ask for do not fail by themselves. -/
def HookRunner.Spared (runner : HookRunner) (event : Event) (w : World) (hooks : List Hook) :
    Prop :=
  ∀ hook ∈ hooks, ∀ past program, runner.Asks event w past hook program → program.own? = none

section
variable {runner : HookRunner} {event : Event} {w : World} {past : List ProcessStart} {hook : Hook}
  {hooks : List Hook} {failure : Option Failure}

/-- A tolerated hook ends well if its command can be split and its process does not fail by
itself. -/
theorem HookEnds.eq_none (h : HookEnds runner event w past hook failure)
    (htolerant : hook.tolerant = true) (hsplits : Splits hook)
    (hspared : ∀ program, runner.Asks event w past hook program → program.own? = none) :
    failure = none := by
  cases h with
  | well => rfl
  | badly _ hnot =>
    rw [htolerant] at hnot
    cases hnot
  | own hasks hown =>
    rw [hspared _ hasks] at hown
    cases hown
  | unsplit he =>
    obtain ⟨ws, hws⟩ := hsplits
    rw [hws] at he
    cases he

theorem HooksEnd.eq_none (h : HooksEnd runner event w past hooks failure)
    (htolerant : ∀ hook ∈ hooks, hook.tolerant = true ∧ Splits hook)
    (hspared : runner.Spared event w hooks) : failure = none := by
  induction h with
  | done => rfl
  | next _ _ ih =>
    rw [List.forall_mem_cons] at htolerant
    exact ih htolerant.2 fun hook hhook => hspared hook (List.mem_cons_of_mem _ hhook)
  | stopped hhook =>
    obtain ⟨htolerated, hsplits⟩ := htolerant _ List.mem_cons_self
    exact hhook.eq_none htolerated hsplits (hspared _ List.mem_cons_self _)

/-- A hook whose command is not blank ends in one of four ways. -/
theorem ends_of_verdict {result : Except Failure Unit}
    (hresult : runner.verdict w.programs w.environment event past hook = result)
    (h : isBlankText hook.command = false) :
    HookEnds runner event w past hook (failure? result) := by
  rw [← hresult]
  unfold HookRunner.verdict
  cases hstart : runner.start? w.environment event hook with
  | none =>
    -- without a process, the command cannot be split, since it is not blank
    unfold HookRunner.start? at hstart
    unfold wordless
    cases hwords : words hook.command with
    | error e => exact .unsplit hwords
    | ok ws =>
      rw [hwords] at hstart
      cases ws with
      | nil => exact absurd rfl (words_ne_nil h hwords)
      | cons name rest => cases hstart
  | some start =>
    have hasks : runner.Asks event w past hook (w.programs.answer past start) :=
      ⟨start, hstart, rfl⟩
    dsimp only
    unfold Program.verdict
    split
    · next hown => exact .own hasks hown
    · next hown hfailure => exact .well hasks hown (.inl hfailure)
    · next failure hown hfailure =>
      cases htolerant : hook.tolerant with
      | true => exact .well hasks hown (.inr htolerant)
      | false => exact .badly hasks htolerant hfailure

theorem course_ends (h : ∀ hook ∈ hooks, isBlankText hook.command = false)
    (past : List ProcessStart) : HooksEnd runner event w past hooks
      (failure? (runner.course w.programs w.environment event past hooks).1) := by
  induction hooks generalizing past with
  | nil => exact .done
  | cons hook hooks ih =>
    obtain ⟨hhook, hhooks⟩ := List.forall_mem_cons.mp h
    cases hverdict : runner.verdict w.programs w.environment event past hook with
    | error failure =>
      rw [course_of_error hverdict]
      exact .stopped (ends_of_verdict hverdict hhook)
    | ok =>
      rw [course_of_ok hverdict]
      exact .next (ends_of_verdict hverdict hhook) (ih hhooks _)

end

/-! ## The hooks of a configuration -/

theorem HookRunner.ofPhase_eq (runner : HookRunner) (phase : Phase) :
    runner.ofPhase phase = runner.hooks.ofPhase phase := by
  cases phase <;> rfl

/-- The hooks of a configuration, run on a platform. -/
def HookRunner.ofModel (model : Model) (platform : String) : HookRunner :=
  .on model.hooks (some platform)

/-- No hook of a configuration that passed its check has a blank command. -/
theorem command_of_mem_due {model : Model} (h : model.validate = .ok ()) {platform : String}
    {event : Event} {hook : Hook} (hhook : hook ∈ (HookRunner.ofModel model platform).due event) :
    isBlankText hook.command = false := by
  unfold HookRunner.due at hhook
  split at hhook
  · have hphase := (List.mem_filter.mp hhook).1
    rw [HookRunner.ofPhase_eq] at hphase
    exact Model.command_of_validate h hphase
  · cases hhook

/-- Under a configuration that passed its check, the hooks of an event end well, or with the first
one that does not: that is not tolerated and fails, or that cannot be split, or the process of which
fails by itself. So they end well where all of them are tolerated and can be split and no process
fails by itself. -/
theorem runHooks_ends {model : Model} (h : model.validate = .ok ()) (platform : String)
    (event : Event) (w : World) :
    let runner : HookRunner := .ofModel model platform
    HooksEnd runner event w (World.processes w.journal) (runner.due event)
        (failure? (exec (runHooks runner event) w).1) ∧
      ((∀ hook ∈ runner.due event, hook.tolerant = true ∧ Splits hook) →
        runner.Spared event w (runner.due event) →
        (exec (runHooks runner event) w).1 = .ok ()) := by
  dsimp only
  have hends : HooksEnd (.ofModel model platform) event w (World.processes w.journal)
      ((HookRunner.ofModel model platform).due event)
      (failure? (exec (runHooks (.ofModel model platform) event) w).1) := by
    obtain ⟨v, hv, -⟩ := runs_runHooks (.ofModel model platform) event w
    rw [hv]
    exact course_ends (fun hook hhook => command_of_mem_due h hhook) _
  refine ⟨hends, fun htolerant hspared => ?_⟩
  have hnone := hends.eq_none htolerant hspared
  rcases hr : exec (runHooks (.ofModel model platform) event) w with ⟨f | _, v⟩
  · rw [hr] at hnone
    cases hnone
  · rfl

/-- A configuration with one hook for the success of the session, which is tolerated. -/
def tolerating (command : String) : Model where
  project := ⟨"demo", "1", "CUSTOM"⟩
  hooks := ⟨true, [], [], [⟨command, ⟨[], []⟩, true, false, [], none⟩], []⟩
  extensions := []

theorem due_tolerating (command : String) :
    (HookRunner.ofModel (tolerating command) "linux").due (.success sessionScope) =
      [⟨command, ⟨[], []⟩, true, false, [], none⟩] := rfl

/-- A tolerated hook may take too long. -/
theorem runHooks_tolerating_timeout : (tolerating "make clean").validate = .ok () ∧
    let runner : HookRunner := .ofModel (tolerating "make clean") "linux"
    let w : World := .withListeners []
    (∀ hook ∈ runner.due (.success sessionScope), hook.tolerant = true ∧ Splits hook) ∧
    runner.Spared (.success sessionScope) w (runner.due (.success sessionScope)) ∧
    (exec (runHooks runner (.success sessionScope)) w).1 = .ok () := by
  have hvalid : (tolerating "make clean").validate = .ok () := by decide +kernel
  have hdue : ∀ hook ∈
      (HookRunner.ofModel (tolerating "make clean") "linux").due (.success sessionScope),
      hook.tolerant = true ∧ Splits hook := by
    intro hook hhook
    rw [due_tolerating] at hhook
    rw [List.mem_singleton.mp hhook]
    exact ⟨rfl, ["make", "clean"], by decide +kernel⟩
  have hspared : (HookRunner.ofModel (tolerating "make clean") "linux").Spared
      (.success sessionScope) (.withListeners [])
      ((HookRunner.ofModel (tolerating "make clean") "linux").due (.success sessionScope)) := by
    rintro hook - past program ⟨start, -, rfl⟩
    -- whatever is asked for takes too long, or has no name
    unfold World.withListeners Programs.named
    dsimp only
    split <;> rfl
  exact ⟨hvalid, hdue, hspared,
    (runHooks_ends hvalid "linux" (.success sessionScope) _).2 hdue hspared⟩

/-- A quote that nothing closes is no failure of a hook, and tolerating the hook does not help. -/
theorem runHooks_tolerating_openQuote : (tolerating "echo 'oops").validate = .ok () ∧
    (∀ hook ∈ (HookRunner.ofModel (tolerating "echo 'oops") "linux").due (.success sessionScope),
      hook.tolerant = true) ∧
    ∃ failure, (exec (runHooks (.ofModel (tolerating "echo 'oops") "linux")
        (.success sessionScope)) (.withListeners [])).1 = .error failure ∧
      ∀ command code, failure.kind ≠ .hook command code := by
  refine ⟨by decide +kernel, fun hook hhook => ?_, .plain .value "No closing quotation",
    by decide +kernel, by simp [Failure.kind]⟩
  rw [due_tolerating] at hhook
  rw [List.mem_singleton.mp hhook]

end ReleaseRunner.Session
