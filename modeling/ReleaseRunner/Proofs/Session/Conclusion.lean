import ReleaseRunner.Proofs.Session.Lifecycle

/-!
# What a run concludes with

A run that no abort ends is driven to the end of its session, and after that there are two ways.
Where the report can be written, the verdict over the session has the last word: its hooks are run,
it is kept, told in one record, and raised if it is a failure. Where the report cannot be written,
the failure to write it takes the place of all this, even of a failure that decided the session.
-/

namespace ReleaseRunner.Session

open Config Log

/-- In every run that no abort ends, the outcome is not told before the end of the session was
stamped. What comes after the stamp is a conclusion of the verdict and of the time from the first
reading of the clock to the stamp, and then the listeners and the log are closed. -/
theorem execute_concluded (setup : Setup) (runner : HookRunner) (items : List Item) (w : World) :
    ∃ result v, exec (execute setup runner items) w = (result, v) ∧
      ((∃ f, result = .error f ∧ f.isAbort = true) ∨
        ∃ t u rest own, Driven items t ∧ Unconcluded setup runner w.opened t u ∧
          Chronicled setup runner u.stamped (rest ++ [.cleanup, .closeLog]) own v ∧
          Conclusion (verdict t) (durationText w.clock.next u.clock.next) rest
            (own.filter tellsOutcome) v.outcome result) := by
  obtain ⟨result, v, hexec, habort | ⟨w', hsession, houtcome, hclosing⟩⟩ :=
    execute_ended setup runner items w
  · exact ⟨result, v, hexec, .inl habort⟩
  · refine ⟨result, v, hexec, ?_⟩
    have hconcluded := runSession_concluded setup runner items w
    rw [hsession] at hconcluded
    refine hconcluded.imp id ?_
    rintro ⟨t, u, rest, own, hdriven, hsofar, hrest, hconclusion⟩
    have hall := hrest.trans hclosing
    rw [List.append_nil] at hall
    rw [← houtcome] at hconclusion
    exact ⟨t, u, rest, own, hdriven, hsofar, hall, hconclusion⟩

/-- A folder stands in the place of the report, and a stage fails. What is raised is that the report
cannot be written; the failure of the stage is neither raised nor kept nor told, and the hooks for
it are not run. -/
theorem execute_unreported :
    ∃ (setup : Setup) (runner : HookRunner) (item : Item) (w : World),
      let run := exec (execute setup runner [item]) w
      failure? (exec item.invoke w).1 = some (.plain .value "boom") ∧
        failure? run.1 = some (.plain .isAFolder
          "[Errno 21] Is a directory: 'out/release-report.json'") ∧
        run.2.outcome = none ∧ (tellings run.2.journal).isEmpty = true ∧
        World.acts run.2.journal = [.beforeHooks, .sessionStart, .before "deploy",
          .invoke "deploy", .failed "deploy", .sessionEnd, .stamp, .report, .cleanup, .closeLog] := by
  let setup : Setup := {
    model := ⟨⟨"demo", "1.0.0", "SEMVER"⟩, ⟨true, [], [], [], []⟩, []⟩
    settings := ⟨.info, ⟨.here, ["out"]⟩, false, ⟨.here, ["release.json"]⟩⟩ }
  let item : Item := ⟨.deploy, some ⟨"deploy", [.raise (.plain .value "boom")]⟩⟩
  let w : World := { World.withListeners [] with
    tree := ⟨[(["work"], .folder), (["work", "out"], .folder),
      (["work", "out", "release-report.json"], .folder)], ["work"]⟩ }
  exact ⟨setup, ⟨setup.model.hooks, "linux"⟩, item, w, by decide +kernel⟩

end ReleaseRunner.Session
