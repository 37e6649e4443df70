import ReleaseRunner.Proofs.Log.Template
import ReleaseRunner.Proofs.Session.Steps

/-!
# Telling the outcome

A session tells its outcome in one record, which begins in one of two ways and goes on with the
time that the session took. Whatever else the runner logs by itself begins in another way, even
where the names of listeners and the texts of failures stand in it.
-/

namespace ReleaseRunner.Session

open Config Log

/-- How the record begins that tells the outcome. -/
def heading : Outcome → String
  | .success => "Release succeeded in "
  | .failure _ _ => "Release failed after "

/-- What a session of the given duration tells of its outcome. -/
def told (outcome : Outcome) (duration : String) : String :=
  heading outcome ++ duration

/-- The record begins like one that tells an outcome. -/
def tellsOutcome (record : Record) : Bool :=
  "Release succeeded in ".toList.isPrefixOf record.message.toList ||
    "Release failed after ".toList.isPrefixOf record.message.toList

/-- The records among entries that tell an outcome. -/
def tellings (entries : List Entry) : List Record :=
  (World.records entries).filter tellsOutcome

/-- A message that tells an outcome begins like one. -/
theorem tellsOutcome_told {record : Record} {outcome : Outcome} {duration : String}
    (h : record.message = told outcome duration) : tellsOutcome record = true := by
  unfold tellsOutcome
  rw [h, told, String.toList_append, Bool.or_eq_true, List.isPrefixOf_iff_prefix,
    List.isPrefixOf_iff_prefix]
  cases outcome with
  | success => exact .inl (List.prefix_append _ _)
  | failure => exact .inr (List.prefix_append _ _)

/-- The outcome is told in a record of its own, with the duration in its only place. -/
theorem exec_tell (outcome : Outcome) (message : String)
    (hmessage : message.toList = (heading outcome).toList ++ ['%', 's']) (level : Level)
    (extra : Members) (hextra : Record.refusal? extra = none)
    (hshowable : Record.isShowable extra = true) (duration : String) (w : World) :
    ∃ record : Record, record.message = told outcome duration ∧
      exec (say level message [.text duration] extra false) w =
        (.ok (), w.noted (.record record (w.reach record.level))) := by
  have hheading : '%' ∉ (heading outcome).toList := by
    cases outcome <;> simp only [heading] <;> decide
  have hfill : fill? message [.text duration] = some (told outcome duration) := by
    rw [fill?_one hmessage hheading List.not_mem_nil, List.append_nil, ← String.toList_append,
      String.ofList_toList]
    rfl
  have hmake :
      Record.make? sessionLogger level message [.text duration] (w.log.tagged extra) false =
      some _ := Record.make?_of_fill? (isShowable_tagged hshowable w.log) hfill
  exact ⟨_, rfl, exec_say_made hextra hmake⟩

/-! ## Other records -/

/-- Two texts part before either of them ends. -/
def Parts (s t : List Char) : Bool :=
  !s.isPrefixOf t && !t.isPrefixOf s

theorem not_isPrefixOf_of_parts {heading front : List Char} (h : Parts heading front = true)
    (rest : List Char) : heading.isPrefixOf (front ++ rest) = false := by
  unfold Parts at h
  simp only [Bool.and_eq_true, Bool.not_eq_true', ← Bool.not_eq_true,
    List.isPrefixOf_iff_prefix] at h ⊢
  intro hheading
  rcases List.prefix_or_prefix_of_prefix hheading (List.prefix_append front rest)
    with hclash | hclash
  · exact h.1 hclash
  · exact h.2 hclash

theorem message_of_make? {logger : String} {level : Level} {message : String} {values : List Json}
    {extra : Members} {traceback : Bool} {record : Record}
    (h : Record.make? logger level message values extra traceback = some record) :
    fill? message values = some record.message := by
  obtain ⟨-, text, htext, rfl⟩ := Record.make?_eq_some_iff.mp h
  exact htext

/-- What the runner logs on the way takes no name of a record's own. -/
theorem Saying.untaken {level : Level} {message : String} {values : List Json} {extra : Members}
    {traceback : Bool} (h : Saying level message values extra traceback) :
    Record.refusal? extra = none := by
  cases h <;> rfl

/-- How the records begin that tell an outcome or that a listener failed. -/
def headings : List String :=
  ["Release succeeded in ", "Release failed after ", "Listener "]

private theorem parts_filter (filter : Filter) :
    ∃ front rest, (filter.name.map fun c => if c == '_' then ' ' else c).toList = front ++ rest ∧
      ∀ heading ∈ headings, Parts heading.toList front = true := by
  unfold Filter.name
  rw [String.toList_map, String.toList_append, List.map_append]
  refine ⟨_, _, rfl, ?_⟩
  cases filter.excluding <;> decide

private theorem parts_kind (kind : FailureKind) :
    ∀ heading ∈ headings, Parts heading.toList kind.name.toList = true := by
  cases kind <;> simp only [FailureKind.name] <;> decide

/-- A title and what it is about, as the runner logs them. -/
private theorem fill?_titled (title text : String) :
    fill? "%s: %s" [.text title, .text text] =
      some (String.ofList (title.toList ++ (": ".toList ++ text.toList))) := by
  have htemplate : "%s: %s".toList = [] ++ '%' :: 's' :: (": ".toList ++ '%' :: 's' :: []) := rfl
  have hfilled := fill?_two htemplate List.not_mem_nil (by decide) List.not_mem_nil title text
  rwa [List.append_nil] at hfilled

private theorem fill?_listener (name : String) :
    fill? "Listener %s failed" [.text name] =
      some (String.ofList ("Listener ".toList ++ name.toList ++ " failed".toList)) :=
  fill?_one rfl (by decide) (by decide) name

/-- What the runner logs on the way begins like none of these records, but where a listener
failed. -/
theorem Saying.other {level : Level} {message : String} {values : List Json} {extra : Members}
    {traceback : Bool} (h : Saying level message values extra traceback)
    (hmessage : message ≠ "Listener %s failed") {record : Record}
    (hfill : fill? message values = some record.message) :
    ∀ heading ∈ headings, heading.toList.isPrefixOf record.message.toList = false := by
  cases h with
  | dryRun value =>
    have hvalue : fill? "dry-run set to %s" [.bool value] =
        some (if value then "dry-run set to True" else "dry-run set to False") := by
      cases value <;> decide +kernel
    rw [← Option.some.inj (hvalue.symm.trans hfill)]
    cases value <;> decide
  | filter filter values =>
    have htext := Option.some.inj ((fill?_titled _ _).symm.trans hfill)
    obtain ⟨front, rest, hname, hparts⟩ := parts_filter filter
    rw [hname, List.append_assoc] at htext
    intro heading hheading
    rw [← htext, String.toList_ofList]
    exact not_isPrefixOf_of_parts (hparts heading hheading) _
  | listener failure => exact absurd rfl hmessage
  | hooks =>
    rw [← Option.some.inj hfill]
    decide
  | failure failure =>
    have htext := Option.some.inj ((fill?_titled _ _).symm.trans hfill)
    intro heading hheading
    rw [← htext, String.toList_ofList]
    exact not_isPrefixOf_of_parts (parts_kind failure.kind heading hheading) _

theorem Saying.untold {level : Level} {message : String} {values : List Json} {extra : Members}
    {traceback : Bool} (h : Saying level message values extra traceback)
    (hmessage : message ≠ "Listener %s failed") {record : Record}
    (hfill : fill? message values = some record.message) : tellsOutcome record = false := by
  have hother := h.other hmessage hfill
  unfold tellsOutcome
  rw [hother _ (by simp [headings]), hother _ (by simp [headings])]
  rfl

/-! ## Telling that listeners failed -/

/-- The record begins like one that tells that a listener failed. -/
def tellsListener (record : Record) : Bool :=
  "Listener ".toList.isPrefixOf record.message.toList

/-- What tells the outcome tells of no listener. -/
theorem silent_of_told {record : Record} {outcome : Outcome} {duration : String}
    (h : record.message = told outcome duration) : tellsListener record = false := by
  unfold tellsListener
  rw [h, told, String.toList_append]
  refine not_isPrefixOf_of_parts ?_ _
  cases outcome <;> simp only [heading] <;> decide

theorem Saying.silent {level : Level} {message : String} {values : List Json} {extra : Members}
    {traceback : Bool} (h : Saying level message values extra traceback)
    (hmessage : message ≠ "Listener %s failed") {record : Record}
    (hfill : fill? message values = some record.message) : tellsListener record = false :=
  h.other hmessage hfill _ (by simp [headings])

/-- What is logged about a listener that failed: first that it did and under which policy, and then
its failure. -/
def listenerRecords (log : SessionLog) (failure : ListenerFailure) : List Record :=
  [{ level := .error, logger := sessionLogger, message := s!"Listener {failure.listener} failed"
     extra := log.tagged [("continue_on_error", .bool failure.tolerant)], traceback := false },
    { level := .debug, logger := sessionLogger, message := failure.cause.titled
      extra := log.tagged [], traceback := true }]

theorem toList_titled (failure : Failure) : failure.titled.toList =
    failure.kind.name.toList ++ (": ".toList ++ failure.text.toList) := by
  show (failure.kind.name ++ ": " ++ failure.text).toList = _
  rw [String.toList_append, String.toList_append, List.append_assoc]

theorem toList_listenerMessage (name : String) : s!"Listener {name} failed".toList =
    "Listener ".toList ++ name.toList ++ " failed".toList := by
  show ("Listener " ++ name ++ " failed").toList = _
  rw [String.toList_append, String.toList_append]

theorem untold_listenerRecords {log : SessionLog} {failure : ListenerFailure} {record : Record}
    (h : record ∈ listenerRecords log failure) : tellsOutcome record = false := by
  unfold tellsOutcome
  rcases List.mem_cons.mp h with rfl | h
  · dsimp only
    rw [toList_listenerMessage, List.append_assoc, not_isPrefixOf_of_parts (by decide),
      not_isPrefixOf_of_parts (by decide)]
    rfl
  · have hparts := parts_kind failure.cause.kind
    rw [List.mem_singleton.mp h, toList_titled,
      not_isPrefixOf_of_parts (hparts _ (by simp [headings])),
      not_isPrefixOf_of_parts (hparts _ (by simp [headings]))]
    rfl

/-- None of the members that a record of the session gets is left out. -/
theorem shown_tagged (log : SessionLog) {extra : Members}
    (h : extra.filter (fun (name, _) => Record.isShown name) = extra) :
    (log.tagged extra).filter (fun (name, _) => Record.isShown name) = log.tagged extra := by
  unfold SessionLog.tagged
  split
  · split
    · exact h
    · have hstep : Record.isShown "step" = true := by decide +kernel
      rw [List.filter_append, h]
      simp only [List.filter_cons, hstep, if_true, List.filter_nil]
  · exact h

/-- A failure is always logged, under its title. -/
theorem exec_trace (failure : Failure) (w : World) :
    exec (trace failure) w =
      (.ok (), w.noted (.record
        { level := .debug, logger := sessionLogger, message := failure.titled
          extra := w.log.tagged [], traceback := true } (w.reach .debug))) := by
  refine exec_say_made rfl ?_
  rw [Record.make?_of_fill? (isShowable_tagged rfl w.log) (fill?_titled _ _),
    shown_tagged w.log rfl, ← toList_titled, String.ofList_toList]

/-- The failure of a listener is logged in two records, whatever it is, of which each gets as far as
the log lets it. -/
theorem exec_logListenerFailure (failure : ListenerFailure) (w : World) :
    exec (logListenerFailure failure) w =
      (.ok (), { w with
        journal := w.journal ++
          (listenerRecords w.log failure).map fun record =>
            .record record (w.reach record.level) }) := by
  have hpolicy : Record.isShown "continue_on_error" = true := by decide +kernel
  have hsay : exec (say .error "Listener %s failed" [.text failure.listener]
      [("continue_on_error", .bool failure.tolerant)] false) w =
      (.ok (), w.noted (.record
        { level := .error, logger := sessionLogger
          message := s!"Listener {failure.listener} failed"
          extra := w.log.tagged [("continue_on_error", .bool failure.tolerant)]
          traceback := false } (w.reach .error))) := by
    refine exec_say_made rfl ?_
    rw [Record.make?_of_fill? (isShowable_tagged rfl w.log) (fill?_listener _),
      shown_tagged w.log (by simp only [List.filter_cons, hpolicy, if_true, List.filter_nil]),
      ← toList_listenerMessage, String.ofList_toList]
  unfold logListenerFailure
  rw [exec_bind_ok hsay, exec_trace]
  unfold World.noted
  rw [List.append_assoc]
  rfl

end ReleaseRunner.Session
