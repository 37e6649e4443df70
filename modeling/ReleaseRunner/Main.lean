import ReleaseRunner.CommandLine.Program
import ReleaseRunner.Json.Writer

/-!
# The executable

Reads what the program needs from the machine, runs it, and carries out what it printed and
wrote. Nothing is installed here and no process is started, so hooks are reported as commands
that could not be started.
-/

namespace ReleaseRunner.Main

open Config Files Session CommandLine

/-- The environment variables that hold settings, as far as they are set. -/
def settingVariables : IO (List (String × String)) := do
  let names := [Settings.logLevelName, Settings.outputFolderName, Settings.dryRunName,
    Settings.configFileName].flatMap fun name => [name.field, name.shared]
  names.filterMapM fun name => do
    return (← IO.getEnv name).map (name, ·)

/-- The tree with the file at a path, if there is one. -/
def withFile (tree : Tree) (path : Path) : IO Tree := do
  try
    let bytes ← IO.FS.readBinFile path.text
    return tree.lay path.names (.ofBytes bytes.toList)
  catch _ => return tree

/-- The configuration file that the arguments and the settings name. -/
def configFile (words : List String) (environment : List (String × String)) (tree : Tree) :
    Path :=
  let fromSettings := match Settings.read environment tree with
    | .ok settings => settings.configFile
    | .error _ => Path.read "release.json"
  match Arguments.read words with
  | .ok a => a.config.getD fromSettings
  | .error _ => fromSettings

/-- The time, in microseconds: the one that a new file carries. -/
def time : IO Int := do
  let (_, file) ← IO.FS.createTempFile
  let modified := (← file.metadata).modified
  IO.FS.removeFile file
  return modified.sec * 1000000 + modified.nsec.toNat / 1000

/-- The world that a machine offers. -/
def world (micros : Int) (environment : List (String × String)) (tree : Tree) : World :=
  { clock := ⟨⟨micros⟩, 0⟩
    tree := tree
    environment := environment
    programs := .installed fun name =>
      .unstartable (systemText 2 "No such file or directory" (some name))
    extensions := [], steps := [], forced := []
    roster := .empty, log := ⟨none, false, none⟩, console := none, dryRun := false
    filters := .none, validated := false, ended := false, outcome := none, journal := [] }

/-- A record as a line of output. -/
def recordLine (time : String) (record : Log.Record) : String :=
  (record.line time).compact

/-- Writes the files that the run has left below the working directory. -/
def writeFiles (start : Tree) (w : World) : IO Unit :=
  for (place, node) in w.tree.nodes do
    if start.here.isPrefixOf place && start.node? place != some node then
      let path := Text.joined "/" (place.drop start.here.length)
      match node with
      | .folder => IO.FS.createDirAll path
      | .file (.text text) =>
        IO.FS.createDirAll (Text.joined "/" ("." :: (place.drop start.here.length).dropLast))
        IO.FS.writeFile path text
      | .file .binary => pure ()

/-- Prints what the run has printed. -/
def printAll (time : String) (w : World) : IO Unit := do
  for printed in World.printed w.console w.journal do
    match printed with
    | .inl text => IO.println text
    | .inr record => IO.println (recordLine time record)
  for text in World.errorLines w.journal do
    IO.eprintln text

end ReleaseRunner.Main

open ReleaseRunner Files CommandLine in
/-- Runs the program on the machine. -/
def main (words : List String) : IO UInt32 := do
  let environment ← Main.settingVariables
  let tree ← Main.withFile Tree.empty Config.Settings.environmentFile
  let tree ← Main.withFile tree (Main.configFile words environment tree)
  let micros ← Main.time
  let (ending, w) := (CommandLine.run words).run (Main.world micros environment tree)
  Main.printAll (Instant.mk micros).text w
  Main.writeFiles tree w
  match ending with
  | .ok (.returned code) => return code.toUInt32
  | .ok (.left code) => return code.toUInt32
  | .error failure =>
    IO.eprintln failure.titled
    return 1
