import ReleaseRunner.Config.Dotenv
import ReleaseRunner.Config.Schema
import ReleaseRunner.Files.Tree
import ReleaseRunner.Log.Level
import ReleaseRunner.Text.Case

/-!
# Settings of a process

The settings come from the environment, and below it from the environment file of the working
directory. A setting has a public name and the name of its field; both are known in letters of
either case. The public name is looked for first, in both places, and then the field's name.
-/

namespace ReleaseRunner.Config

open ReleaseRunner.Text ReleaseRunner.Files ReleaseRunner.Log

/-- The settings of a process. -/
structure Settings where
  logLevel : Level
  outputFolder : Path
  dryRun : Bool
  configFile : Path
deriving Repr, DecidableEq

namespace Settings

/-- The name of the document in fault reports. -/
def title : String := "ReleaseSettings"

/-- Where the log of a session is written. -/
def traceFile (s : Settings) : Path := s.outputFolder.child "trace.log"

/-- Where the report of a session is written. -/
def reportFile (s : Settings) : Path := s.outputFolder.child "release-report.json"

/-- A setting by its two names. -/
structure Name where
  shared : String
  field : String

/-- The level of a log. -/
def logLevelName : Name := ⟨"LOG_LEVEL", "log_level"⟩

/-- The folder of the log and the report. -/
def outputFolderName : Name := ⟨"RELEASE_OUTPUT_DIRECTORY", "output_directory"⟩

/-- Whether nothing is to be published. -/
def dryRunName : Name := ⟨"RELEASE_DRY_RUN", "dry_run"⟩

/-- The file of the configuration. -/
def configFileName : Name := ⟨"RELEASE_CONFIG_FILE", "config_file"⟩

/-- Variables with their names in small letters; of two that become one the later counts. -/
def lowered {α : Type} (definitions : List (String × α)) : List (String × α) :=
  Json.withMembers [] (definitions.map fun (name, value) => (smallLetters name, value))

/-- A source of variables, its names in small letters. -/
abbrev Source := List (String × Option String)

/-- The value of a variable that has one. -/
def valueIn (source : Source) (name : String) : Option String :=
  (source.lookup (smallLetters name)).join

/-- The value of a setting, from the sources in falling precedence. A source that knows the
public name is not asked for the field's. -/
def value? (sources : List Source) (name : Name) : Option String :=
  match sources.findSome? (valueIn · name.shared) with
  | some value => some value
  | none => sources.findSome? (valueIn · name.field)

/-- A setting with a value for when it is missing. -/
def setting {α : Type} (sources : List Source) (name : Name) (missing : α)
    (read : String → Checked α) : Checked α :=
  match value? sources name with
  | some value => within (.key name.shared) (read value)
  | none => .ok missing

/-- The levels that a process may be set to, by name. -/
def levels : List (String × Level) :=
  [Level.critical, .error, .warning, .info, .debug].map fun level => (level.name, level)

/-- The level that a text names, in letters of either case and with blanks around it. -/
def readLevel (s : String) : Checked Level :=
  match levels.lookup (capitals (strip s)) with
  | some level => .ok level
  | none => breach .isAccepted

/-- The settings that the sources give. -/
def ofSources (sources : List Source) : Checked Settings :=
  (.ok Settings.mk : Checked _)
  |> along (setting sources logLevelName .info readLevel)
  |> along (setting sources outputFolderName (Path.read "out/release") (.ok ∘ Path.read))
  |> along (setting sources dryRunName false truthOfText)
  |> along (setting sources configFileName (Path.read "release.json") (.ok ∘ Path.read))

/-- The environment file. -/
def environmentFile : Path := Path.read ".env"

/-- What the environment file of a tree defines. -/
def readEnvironmentFile (environment : List (String × String)) (tree : Tree) :
    Except Failure Dotenv.Reading :=
  if tree.isFile environmentFile then
    (tree.readText environmentFile).map (Dotenv.read environment)
  else .ok ⟨[], []⟩

/-- The settings of a process. -/
def read (environment : List (String × String)) (tree : Tree) : Except Failure Settings := do
  let file ← readEnvironmentFile environment tree
  let sources := [lowered (environment.map fun (k, v) => (k, some v)), lowered file.definitions]
  (ofSources sources).mapError (Failure.malformed title)

end Settings

end ReleaseRunner.Config
