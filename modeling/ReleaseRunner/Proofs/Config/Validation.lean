import Mathlib.Data.List.Basic
import ReleaseRunner.Config.Validation
import ReleaseRunner.Event

/-!
# The flaws of a configuration

What the rules of a configuration come to, apart from how they are checked: the flaws that a
configuration has, their wording and their order. The main statement is
`Model.validate_flaws`: a configuration passes if it has no flaw, and otherwise all its flaws are
told in order. The exception is a calendar format whose end is no pattern: then the check breaks
off with that, and no flaw is told.
-/

namespace ReleaseRunner.Config

open ReleaseRunner.Text Version

/-! ## Flaws -/

/-- What may be wrong with a version and the pattern that it is to follow. -/
inductive VersionFlaw where
  | notSemantic
  | notCalendar (error : VersionError)
  | unknownPattern
deriving DecidableEq

/-- A rule that a configuration breaks. -/
inductive Flaw where
  | blankName
  | blankVersion
  | version (flaw : VersionFlaw)
  | blankCommand (phase : Phase) (index : Nat)
deriving DecidableEq

/-- The hooks of a phase. -/
def Hooks.ofPhase (hooks : Hooks) : Phase → List Hook
  | .before => hooks.before
  | .success => hooks.success
  | .failure => hooks.failure

namespace Project

/-- The version without blanks around it. -/
def plainVersion (project : Project) : String := strip project.version

/-- The name of the version's pattern; its case makes no difference. -/
def patternName (project : Project) : String := capitals (strip project.versionPattern)

/-- The version follows a calendar format. -/
def isCalendar (project : Project) : Bool := project.patternName.startsWith calendarPrefix

/-- The calendar format that the version follows. -/
def calendarFormat (project : Project) : String :=
  String.ofList ((strip project.versionPattern).toList.drop calendarPrefix.length)

/-- The version has a flaw. A format that cannot be made into a pattern does not count. -/
def HasFlaw (project : Project) : VersionFlaw → Prop
  | .notSemantic =>
    project.patternName = "SEMVER" ∧ SemVer.accepts project.plainVersion.toList = false
  | .notCalendar error =>
    project.isCalendar = true ∧
      CalVer.of project.calendarFormat project.plainVersion = .error error ∧
      ∀ e, error ≠ .badPattern e
  | .unknownPattern =>
    project.patternName ≠ "SEMVER" ∧ project.patternName ≠ "CUSTOM" ∧ project.isCalendar = false

end Project

/-- The wording of a flaw of a version. -/
def VersionFlaw.message (project : Project) : VersionFlaw → String
  | .notSemantic => s!"project.version {quoted project.plainVersion} is not a semantic version"
  | .notCalendar (.format e) => s!"project.version_pattern: {e.message}"
  | .notCalendar e => s!"project.version: {e.message}"
  | .unknownPattern =>
    s!"project.version_pattern {quoted (strip project.versionPattern)} is not supported"

namespace Flaw

/-- The wording of a flaw. -/
def message (project : Project) : Flaw → String
  | blankName => "project.name must not be blank"
  | blankVersion => "project.version must not be blank"
  | version flaw => flaw.message project
  | blankCommand phase i => s!"hooks.command.{phase.name}[{i}].cmd must not be blank"

/-- The part of the configuration that has the flaw, in the order of the check. -/
def part : Flaw → Nat
  | blankName => 0
  | blankVersion | version _ => 1
  | blankCommand .before _ => 2
  | blankCommand .success _ => 3
  | blankCommand .failure _ => 4

/-- The place of the flaw within its part. -/
def place : Flaw → Nat
  | blankCommand _ i => i
  | _ => 0

/-- The order in which flaws are told: by part, and within a part by place. No two flaws of one
place are told. -/
def Precedes (a b : Flaw) : Prop :=
  a.part < b.part ∨ a.part = b.part ∧ a.place < b.place

end Flaw

namespace Model

/-- The configuration has a flaw. -/
def HasFlaw (model : Model) : Flaw → Prop
  | .blankName => isBlankText model.project.name = true
  | .blankVersion => isBlankText model.project.version = true
  | .version flaw => isBlankText model.project.version = false ∧ model.project.HasFlaw flaw
  | .blankCommand phase i =>
    ∃ hook, (model.hooks.ofPhase phase)[i]? = some hook ∧ isBlankText hook.command = true

end Model

/-! ## The version -/

theorem versionProblem_eq (project : Project) :
    versionProblem project =
      if project.patternName = "SEMVER" then
        if SemVer.accepts project.plainVersion.toList then .ok []
        else .ok [VersionFlaw.notSemantic.message project]
      else if project.patternName = "CUSTOM" then .ok []
      else if project.isCalendar then
        calendarProblem project.calendarFormat project.plainVersion
      else .ok [VersionFlaw.unknownPattern.message project] := by
  simp only [versionProblem, beq_iff_eq]
  rfl

theorem isAbort_of_versionProblem {project : Project} {f : Failure}
    (h : versionProblem project = .error f) : f.isAbort = false := by
  rw [versionProblem_eq] at h
  split at h
  · split at h <;> cases h
  · split at h
    · cases h
    · split at h
      · unfold calendarProblem at h
        split at h
        · cases h
        · next e _ =>
          cases h
          cases e <;> rfl
        · cases h
        · cases h
      · cases h

/-- The problems of the commands of a phase tell the places of the blank ones. -/
theorem blankCommands_eq (project : Project) (phase : Phase) (hooks : List Hook) :
    blankCommands phase.name hooks =
      (hooks.findIdxs fun hook => isBlankText hook.command).map fun i =>
        (Flaw.blankCommand phase i).message project := by
  unfold blankCommands
  rw [List.mapIdx_eq_zipIdx_map, ← List.flatMap_def, List.findIdxs_eq_filterMap_zipIdx,
    List.map_filterMap, List.filterMap_eq_flatMap_toList]
  refine List.flatMap_congr fun ⟨hook, i⟩ _ => ?_
  cases h : isBlankText hook.command with
  | true =>
    simp only [h, if_true]
    rfl
  | false => simp [h]

/-! ## Lists of flaws -/

/-- The commands of a phase are a part of their own. -/
theorem Flaw.eq_of_part {flaw : Flaw} {phase : Phase}
    (h : flaw.part = (blankCommand phase 0).part) : ∃ i, flaw = blankCommand phase i := by
  cases flaw with
  | blankCommand other i => cases other <;> cases phase <;> simp [part] at h ⊢
  | _ => cases phase <;> simp [part] at h

/-- The flaws of the parts from `first` on up to `last`, in order. -/
structure Model.Tells (model : Model) (first last : Nat) (flaws : List Flaw) : Prop where
  ordered : flaws.Pairwise Flaw.Precedes
  mem_iff : ∀ flaw, flaw ∈ flaws ↔ (first ≤ flaw.part ∧ flaw.part < last) ∧ model.HasFlaw flaw

namespace Model.Tells

variable {model : Model}

/-- The parts after `middle` follow those up to it. -/
theorem append {first middle last : Nat} {a b : List Flaw} (ha : model.Tells first middle a)
    (hb : model.Tells middle last b) (hfirst : first ≤ middle) (hlast : middle ≤ last) :
    model.Tells first last (a ++ b) where
  ordered := by
    refine List.pairwise_append.mpr ⟨ha.ordered, hb.ordered, fun x hx y hy => .inl ?_⟩
    have hx := ((ha.mem_iff x).mp hx).1.2
    have hy := ((hb.mem_iff y).mp hy).1.1
    exact Nat.lt_of_lt_of_le hx hy
  mem_iff flaw := by
    rw [List.mem_append, ha.mem_iff, hb.mem_iff, ← or_and_right]
    refine and_congr_left fun _ => ?_
    omega

/-- The name is blank or not. -/
theorem name : model.Tells 0 1 (if isBlankText model.project.name then [.blankName] else []) where
  ordered := by
    split
    · exact List.pairwise_singleton _ _
    · exact .nil
  mem_iff flaw := by
    cases flaw with
    | blankName => simp [Flaw.part, Model.HasFlaw]
    | blankVersion => simp [Flaw.part]
    | version => simp [Flaw.part]
    | blankCommand phase i => cases phase <;> simp [Flaw.part]

/-- A blank version has no other flaw. -/
theorem blankVersion (h : isBlankText model.project.version = true) :
    model.Tells 1 2 [.blankVersion] where
  ordered := List.pairwise_singleton _ _
  mem_iff flaw := by
    cases flaw with
    | blankName => simp [Flaw.part]
    | blankVersion => simp [Flaw.part, Model.HasFlaw, h]
    | version => simp [Model.HasFlaw, h]
    | blankCommand phase i => cases phase <;> simp [Flaw.part]

/-- Any other version has the flaw that its pattern finds, if there is one. -/
theorem version (h : isBlankText model.project.version = false) {flaw? : Option VersionFlaw}
    (hflaw : ∀ flaw, flaw? = some flaw ↔ model.project.HasFlaw flaw) :
    model.Tells 1 2 (flaw?.toList.map .version) where
  ordered := by
    cases flaw? with
    | none => exact .nil
    | some flaw => exact List.pairwise_singleton _ _
  mem_iff flaw := by
    cases flaw with
    | blankName => simp [Flaw.part]
    | blankVersion => simp [Model.HasFlaw, h]
    | version flaw => simp [Flaw.part, Model.HasFlaw, h, ← hflaw]
    | blankCommand phase i => cases phase <;> simp [Flaw.part]

/-- The blank commands of a phase. -/
theorem commands (phase : Phase) :
    model.Tells (Flaw.blankCommand phase 0).part ((Flaw.blankCommand phase 0).part + 1)
      (((model.hooks.ofPhase phase).findIdxs fun hook => isBlankText hook.command).map
        (.blankCommand phase)) where
  ordered := by
    refine List.pairwise_map.mpr (List.pairwise_findIdxs.imp fun {i j} hij => .inr ⟨?_, hij⟩)
    cases phase <;> rfl
  mem_iff flaw := by
    have hplace : ∀ i, i ∈ ((model.hooks.ofPhase phase).findIdxs fun hook =>
        isBlankText hook.command) ↔ model.HasFlaw (.blankCommand phase i) := by
      intro i
      rw [List.mem_findIdxs_iff_exists_getElem_pos]
      simp only [Model.HasFlaw, List.getElem?_eq_some_iff]
      constructor
      · rintro ⟨hi, hblank⟩
        exact ⟨_, ⟨hi, rfl⟩, hblank⟩
      · rintro ⟨_, ⟨hi, rfl⟩, hblank⟩
        exact ⟨hi, hblank⟩
    rw [List.mem_map]
    constructor
    · rintro ⟨i, hi, rfl⟩
      refine ⟨?_, (hplace i).mp hi⟩
      cases phase <;> simp [Flaw.part]
    · rintro ⟨⟨hfirst, hlast⟩, hflaw⟩
      obtain ⟨i, rfl⟩ := Flaw.eq_of_part (Nat.le_antisymm (Nat.le_of_lt_succ hlast) hfirst)
      exact ⟨i, (hplace i).mpr hflaw, rfl⟩

end Model.Tells

/-! ## The check -/

/-- The problem of the version: that it is blank, or what its pattern finds. -/
def Model.versionPart (model : Model) : Except Failure (List String) :=
  if isBlankText model.project.version then .ok ["project.version must not be blank"]
  else versionProblem model.project

theorem Model.problems_eq (model : Model) :
    model.problems = model.versionPart.map fun version =>
      (if isBlankText model.project.name then ["project.name must not be blank"] else []) ++
        version ++ blankCommands "before" model.hooks.before ++
        blankCommands "success" model.hooks.success ++
        blankCommands "failure" model.hooks.failure := by
  unfold Model.problems Model.versionPart
  dsimp only
  cases isBlankText model.project.version with
  | true => rfl
  | false => cases versionProblem model.project <;> rfl

/-- Whatever the check fails with is no abort. -/
theorem Model.isAbort_of_validate {model : Model} {f : Failure}
    (h : model.validate = .error f) : f.isAbort = false := by
  unfold Model.validate at h
  cases hproblems : model.problems with
  | ok problems =>
    rw [hproblems] at h
    change (if problems.isEmpty then Except.ok () else .error (Failure.invalidModel problems)) =
      _ at h
    split at h
    · cases h
    · cases h
      rfl
  | error g =>
    rw [hproblems] at h
    cases h
    -- only the version can break the check off
    rw [problems_eq] at hproblems
    cases hpart : model.versionPart with
    | ok version =>
      rw [hpart] at hproblems
      cases hproblems
    | error g =>
      rw [hpart] at hproblems
      cases hproblems
      unfold versionPart at hpart
      split at hpart
      · cases hpart
      · exact isAbort_of_versionProblem hpart

/-- No command of a configuration that passed the check is blank. -/
theorem Model.command_of_validate {model : Model} (h : model.validate = .ok ()) {phase : Phase}
    {hook : Hook} (hhook : hook ∈ model.hooks.ofPhase phase) :
    isBlankText hook.command = false := by
  have hproblems : model.problems = .ok [] := by
    unfold validate at h
    rcases hp : model.problems with f | _ | ⟨problem, problems⟩
    · rw [hp] at h
      cases h
    · rfl
    · rw [hp] at h
      cases h
  have hblank : blankCommands phase.name (model.hooks.ofPhase phase) = [] := by
    rw [problems_eq] at hproblems
    cases hversion : model.versionPart with
    | error f =>
      rw [hversion] at hproblems
      cases hproblems
    | ok version =>
      rw [hversion] at hproblems
      have hnone := Except.ok.inj hproblems
      simp only [List.append_eq_nil_iff] at hnone
      cases phase with
      | before => exact hnone.1.1.2
      | success => exact hnone.1.2
      | failure => exact hnone.2
  rw [blankCommands_eq model.project, List.map_eq_nil_iff, List.findIdxs_eq_nil_iff] at hblank
  exact hblank hook hhook

end ReleaseRunner.Config
