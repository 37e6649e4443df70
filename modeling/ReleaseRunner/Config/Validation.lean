import ReleaseRunner.Config.Model
import ReleaseRunner.Failure
import ReleaseRunner.Text.Case
import ReleaseRunner.Version.CalVer
import ReleaseRunner.Version.SemVer

/-!
# The rules of a configuration

What a configuration has to keep beyond the shape of its document: the project has a name and
a version that suits its pattern, and no hook has a blank command. All problems are collected
and reported together.
-/

namespace ReleaseRunner

open ReleaseRunner.Text

/-- The failure that an error about a version is. -/
def Version.VersionError.failure (e : Version.VersionError) : Failure :=
  let kind := match e with
    | .format _ => FailureKind.badFormat
    | .badPattern .malformed => .badPattern
    | .badPattern .tooManyRounds => .overflow
    | .badMonth _ => .badMonth
    | _ => .value
  .plain kind e.message

namespace Config

/-- What stands in front of the format in the pattern of calendar versions. -/
def calendarPrefix : String := "CALVER:"

/-- The problem of a calendar version, if it has one. A format whose rest is no pattern at all
is not a problem that can be reported but a failure. -/
def calendarProblem (fmt version : String) : Except Failure (List String) :=
  match Version.CalVer.of fmt version with
  | .ok _ => .ok []
  | .error (.badPattern e) => .error (Version.VersionError.badPattern e).failure
  | .error (.format e) => .ok [s!"project.version_pattern: {e.message}"]
  | .error e => .ok [s!"project.version: {e.message}"]

/-- The problem of the version, if it has one. -/
def versionProblem (project : Project) : Except Failure (List String) :=
  let pattern := strip project.versionPattern
  let version := strip project.version
  let name := capitals pattern
  if name == "SEMVER" then
    if Version.SemVer.accepts version.toList then .ok []
    else .ok [s!"project.version {quoted version} is not a semantic version"]
  else if name == "CUSTOM" then .ok []
  else if name.startsWith calendarPrefix then
    calendarProblem (String.ofList (pattern.toList.drop calendarPrefix.length)) version
  else .ok [s!"project.version_pattern {quoted pattern} is not supported"]

/-- The blank commands among the hooks of a phase. -/
def blankCommands (phase : String) (hooks : List Hook) : List String :=
  (hooks.mapIdx fun i hook =>
    if isBlankText hook.command then [s!"hooks.command.{phase}[{i}].cmd must not be blank"]
    else []).flatten

namespace Model

/-- All problems of a configuration. -/
def problems (model : Model) : Except Failure (List String) := do
  let name :=
    if isBlankText model.project.name then ["project.name must not be blank"] else []
  let version ←
    if isBlankText model.project.version then pure ["project.version must not be blank"]
    else versionProblem model.project
  return name ++ version ++ blankCommands "before" model.hooks.before ++
    blankCommands "success" model.hooks.success ++ blankCommands "failure" model.hooks.failure

/-- A configuration with problems is refused. -/
def validate (model : Model) : Except Failure Unit := do
  let problems ← model.problems
  if problems.isEmpty then .ok () else .error (.invalidModel problems)

end Model

end Config

end ReleaseRunner
