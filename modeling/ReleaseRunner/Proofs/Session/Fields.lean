import Mathlib
import ReleaseRunner.Proofs.Session.Closing

/-!
# What a line shows of a call

Whoever logs in the log of a session gives further members of his own. The main statement says what
becomes of them where the log lets the call through (`exec_say_fields`): a name of a record's own is
refused, and otherwise the line of the record has what was given, each under its own name, apart
from what is kept from sight, and the step that is running if none was given. What stands beside
these members on the line does not depend on them (`Shows`).

Two further names are taken, but what is given under the one is not shown, and with the other there
is no line, as there is none with a number that is too long to be written (`exec_say_hidden`).
-/

namespace ReleaseRunner.Session

open Log

/-! ## The members of a call -/

/-- What a key has among the members that a record of the log shows: what was given under it, and
for the step the tag of the log if nothing was given. -/
def SessionLog.shownAt (log : SessionLog) (extra : Members) (key : String) : Option Json :=
  if key.startsWith "_" || key == "taskName" then none
  else (Json.lookup extra key).or (if key = "step" then log.step.map .text else none)

theorem lookup_tagged (log : SessionLog) (extra : Members) (key : String) :
    Json.lookup (log.tagged extra) key =
      (Json.lookup extra key).or (if key = "step" then log.step.map .text else none) := by
  unfold SessionLog.tagged
  cases log.step with
  | none => simp
  | some step =>
    by_cases hgiven : extra.any (·.1 == "step") = true
    · have hmem : "step" ∈ extra.map Prod.fst := by simpa [List.any_eq_true] using hgiven
      obtain ⟨value, hvalue⟩ : ∃ value, Json.lookup extra "step" = some value :=
        Option.ne_none_iff_exists'.mp (mt Json.lookup_eq_none_iff.mp (not_not.mpr hmem))
      simp only [hgiven, if_true]
      by_cases hkey : key = "step"
      · rw [hkey, hvalue, Option.some_or]
      · rw [if_neg hkey, Option.or_none]
    · have hmem : "step" ∉ extra.map Prod.fst := by simpa [List.any_eq_true] using hgiven
      simp only [hgiven, if_false, Bool.false_eq_true]
      rw [Json.lookup_append, Json.lookup_singleton]
      by_cases hkey : key = "step"
      · rw [hkey, Json.lookup_eq_none_iff.mpr hmem]
        simp
      · simp [hkey, Ne.symm hkey]

/-- What is shown of the members under a tag. -/
theorem lookup_shown (log : SessionLog) (extra : Members) (key : String) :
    Json.lookup ((log.tagged extra).filter fun (name, _) => Record.isShown name) key =
      log.shownAt extra key := by
  rw [Json.lookup_filter, lookup_tagged]
  unfold Record.isShown SessionLog.shownAt
  cases key.startsWith "_" with
  | true => simp
  | false => by_cases hkey : key = "taskName" <;> simp [hkey]

/-- The tag is added under a name of its own. -/
theorem nodup_tagged (log : SessionLog) {extra : Members} (h : (extra.map Prod.fst).Nodup) :
    ((log.tagged extra).map Prod.fst).Nodup := by
  unfold SessionLog.tagged
  split
  · split
    · exact h
    · next hgiven =>
      rw [List.map_append]
      refine h.append (by simp) ?_
      simpa [List.any_eq_true] using hgiven
  · exact h

/-! ## The line of a record -/

/-- The line tells the level, the logger and the message of a call and whether there is a
traceback, whatever else was given. All that was given besides stands in one object, where each
key has what it is meant to have. -/
structure Shows (log : SessionLog) (level : Level) (text : String) (extra : Members)
    (traceback : Bool) (line : Json) : Prop where
  level : line.field? "level" = some (.text level.name)
  logger : line.field? "logger" = some (.text sessionLogger)
  message : line.field? "message" = some (.text text)
  exception : line.field? "exception" = if traceback then some (.bool true) else none
  extra : ∃ shown : Members,
    line.field? "extra" = (if shown.isEmpty then none else some (.object shown)) ∧
    (∀ key, Json.lookup shown key = log.shownAt extra key) ∧
    ((extra.map Prod.fst).Nodup → (shown.map Prod.fst).Nodup)
  others : ∀ key, (line.field? key).isSome →
    key ∈ ["timestamp", "level", "logger", "message", "extra", "exception"]

/-- What stands on the line of a record, part by part. -/
theorem field?_line (time : String) (r : Record) (key : String) :
    (r.line time).field? key =
      if key = "exception" then if r.traceback then some (.bool true) else none
      else if key = "extra" then if r.extra.isEmpty then none else some (.object r.extra)
      else if key = "message" then some (.text r.message)
      else if key = "logger" then some (.text r.logger)
      else if key = "level" then some (.text r.level.name)
      else if key = "timestamp" then some (.text time)
      else none := by
  have hexception : Json.lookup (if r.traceback then [("exception", Json.bool true)] else []) key =
      if key = "exception" then if r.traceback then some (.bool true) else none else none := by
    cases r.traceback with
    | false => simp [Json.lookup_nil]
    | true => simp [Json.lookup_singleton, eq_comm]
  have hextra : Json.lookup (if r.extra.isEmpty then [] else [("extra", Json.object r.extra)]) key =
      if key = "extra" then if r.extra.isEmpty then none else some (.object r.extra) else none := by
    cases r.extra.isEmpty with
    | false => simp [Json.lookup_singleton, eq_comm]
    | true => simp [Json.lookup_nil]
  unfold Record.line Record.members Json.field?
  dsimp only
  rw [Json.lookup_cons, Json.lookup_append, Json.lookup_append, hexception, hextra]
  simp only [Json.lookup_cons, Json.lookup_nil, Option.none_or, eq_comm (b := key)]
  -- no two parts have the same name
  by_cases hkey : key = "exception"
  · subst hkey
    cases r.traceback <;> simp
  by_cases hkey' : key = "extra"
  · subst hkey'
    cases r.extra.isEmpty <;> simp
  simp only [hkey, hkey', if_false, Option.none_or]
  by_cases hmessage : key = "message"
  · simp [hmessage]
  by_cases hlogger : key = "logger"
  · simp [hlogger]
  by_cases hlevel : key = "level"
  · simp [hlevel]
  simp [hmessage, hlogger, hlevel]

/-! ## Calls -/

/-- What the log lets through is made, and goes to the trace file while that is open. -/
theorem reach_of_admits {w : World} {level : Level} (h : w.level.admits level = true) :
    w.reach level = if w.log.trace.isSome then .traced else .made := by
  unfold World.reach
  rw [if_pos h]

/-- Of the calls that the log lets through, one whose message fits its values fails where a name of
a record's own is among its members, and names the first one. Where there is none it does not fail,
and if the members can be shown, a record is made whose line shows what the call is about. -/
theorem exec_say_fields {level : Level} {message : String} {values : List Json} {text : String}
    {w : World} (hlevel : w.level.admits level = true) (hfill : fill? message values = some text)
    (extra : Members) (traceback : Bool) :
    (∀ key, (extra.map Prod.fst).find? (Record.ownNames.contains ·) = some key →
      exec (say level message values extra traceback) w =
        (.error (.missingKey s!"Attempt to overwrite {Text.quoted key} in LogRecord"), w)) ∧
    ((∀ key ∈ extra.map Prod.fst, key ∉ Record.ownNames) →
      (exec (say level message values extra traceback) w).1 = .ok () ∧
      (Record.isShowable extra = true →
        ∃ record, exec (say level message values extra traceback) w =
            (.ok (), w.noted (.record record (if w.log.trace.isSome then .traced else .made))) ∧
          ∀ time, Shows w.log level text extra traceback (record.line time))) := by
  constructor
  · intro key hkey
    have hrefusal := Record.refusal?_eq_some_iff.mpr ⟨key, hkey, rfl⟩
    rw [exec_say, refusal?_tagged, hrefusal]
    simp only [hlevel, if_true]
  · intro hnames
    have huntaken := Record.refusal?_eq_none_iff.mpr hnames
    refine ⟨?_, fun hshowable => ?_⟩
    · rcases exec_say_untaken huntaken level message values traceback w with h | ⟨_, -, h⟩
      · rw [h]
      · rw [h]
    · have hmake : Record.make? sessionLogger level message values (w.log.tagged extra) traceback =
          some _ := Record.make?_of_fill? (isShowable_tagged hshowable w.log) hfill
      rw [← reach_of_admits hlevel]
      refine ⟨_, exec_say_made huntaken hmake, fun time => ?_⟩
      refine ⟨by simp [field?_line], by simp [field?_line], by simp [field?_line],
        by simp [field?_line], ⟨_, by simp [field?_line], lookup_shown w.log extra,
          fun hnodup => ?_⟩, fun key hkey => ?_⟩
      · exact (nodup_tagged w.log hnodup).sublist (List.filter_sublist.map _)
      · by_contra hother
        simp only [List.mem_cons, List.not_mem_nil, or_false, not_or] at hother
        simp [field?_line, hother] at hkey

/-- A stage is signing and tells of a file. The names of parts of the line are no names of a
record's own, and what is given under them stands apart from those parts. -/
theorem exec_say_fields_signing :
    ∃ (w : World) (record : Record),
      exec (say .info "signed %s" [.text "app.jar"]
        [("files", .int 3), ("level", .text "high"), ("_key", .text "k1")] false) w =
          (.ok (), w.noted (.record record .made)) ∧
        let line := record.line "2024-02-28T23:59:58+00:00"
        line.field? "level" = some (.text "INFO") ∧
        line.field? "message" = some (.text "signed app.jar") ∧
        ∃ shown, line.field? "extra" = some (.object shown) ∧
          Json.lookup shown "files" = some (.int 3) ∧
          Json.lookup shown "level" = some (.text "high") ∧
          Json.lookup shown "_key" = none ∧
          Json.lookup shown "step" = some (.text "sign") := by
  let w : World :=
    { World.withListeners [] with log := ⟨some "sign", false, none⟩, console := some .info }
  have hfill : fill? "signed %s" [.text "app.jar"] = some "signed app.jar" := by cbv
  have hcall := (exec_say_fields (show w.level.admits .info = true by decide) hfill
    [("files", .int 3), ("level", .text "high"), ("_key", .text "k1")] false).2 (by decide)
  obtain ⟨record, hexec, hshows⟩ := hcall.2 (by decide +kernel)
  obtain ⟨hlevel, -, hmessage, -, ⟨shown, hextra, hshown, -⟩, -⟩ :=
    hshows "2024-02-28T23:59:58+00:00"
  have hfiles : Json.lookup shown "files" = some (.int 3) := (hshown "files").trans (by cbv)
  refine ⟨w, record, hexec, hlevel, hmessage, shown, ?_, hfiles, (hshown "level").trans (by cbv),
    (hshown "_key").trans (by cbv), (hshown "step").trans (by cbv)⟩
  -- an object with a member is not empty
  cases shown with
  | nil => cases hfiles
  | cons member shown => exact hextra

/-- Two names that a call gets through with. What is given under the one is not shown, and with the
other there is no line at all, as there is none with a number that is too long to be written. -/
theorem exec_say_hidden :
    let w : World := { World.withListeners [] with console := some .info }
    (∃ record, exec (say .info "building" [] [("taskName", .text "nightly")] false) w =
        (.ok (), w.noted (.record record .made)) ∧
      (record.line "2024-02-28T23:59:58+00:00").field? "extra" = none) ∧
    exec (say .info "building" [] [("getMessage", .text "nightly")] false) w = (.ok (), w) ∧
    exec (say .info "building" [] [("size", .int (10 ^ 4300))] false) w = (.ok (), w) := by
  refine ⟨⟨⟨.info, sessionLogger, "building", [], false⟩, ?_, ?_⟩, ?_, ?_⟩
  · cbv
  · cbv
  · cbv
  · have hlong : Record.isShowable [("size", .int (10 ^ 4300))] = false := by decide +kernel
    have hmake : Record.make? sessionLogger .info "building" []
        ((World.withListeners []).log.tagged [("size", .int (10 ^ 4300))]) false = none := by
      unfold Record.make?
      rw [show SessionLog.tagged _ _ = [("size", Json.int (10 ^ 4300))] from rfl, hlong]
      rfl
    rcases exec_say_untaken (show Record.refusal? [("size", .int (10 ^ 4300))] = none by rfl) .info
      "building" [] false { World.withListeners [] with console := some .info } with
      hnone | ⟨record, hrecord, -⟩
    · exact hnone
    · cases hmake.symm.trans hrecord

end ReleaseRunner.Session
