import ReleaseRunner.CommandLine.Flag
import ReleaseRunner.Config.Filters
import ReleaseRunner.Files.Path
import ReleaseRunner.Stage
import ReleaseRunner.Text.Quoted

/-!
# The command line

A command is the validation of the configuration or a workflow, whose name is written with
hyphens. The flags of a command stand behind it. Reading ends early where help or the version
is asked for, and where the arguments are refused.
-/

namespace ReleaseRunner.CommandLine

open Config Files Text

/-- What a flag stands for. -/
inductive Meaning where
  | help
  | version
  | config
  | outputFolder
  | dryRun
  | filter (filter : Filter)
deriving Repr, DecidableEq

/-- Why reading ends without a command. -/
inductive Stop where
  | help
  | version
  | refused (program message : String)
deriving Repr, DecidableEq

/-- What the command line asks for. -/
structure Arguments where
  command : String
  config : Option Path
  outputFolder : Option Path
  dryRun : Bool
  filters : Filters

/-- The name of the program. -/
def programName : String := "release-orchestrator"

/-- The program with its version. -/
def versionText : String := programName ++ " 0.1.0"

/-- The name of the command that validates. -/
def validateCommand : String := "validate"

/-- A name with hyphens for its underscores. -/
def hyphened (name : String) : String :=
  name.map fun c => if c == '_' then '-' else c

/-- A name with underscores for its hyphens. -/
def underscored (name : String) : String :=
  name.map fun c => if c == '-' then '_' else c

/-- The commands in the order in which they are offered. -/
def commands : List String :=
  validateCommand :: Plan.all.map fun (name, _) => hyphened name

/-- The flag that asks for help. -/
def helpFlag : Flag Meaning := ⟨["-h", "--help"], false, .help⟩

/-- The flags in front of a command. -/
def programFlags : List (Flag Meaning) :=
  [helpFlag, ⟨["--version"], false, .version⟩]

/-- The flags of a command. -/
def commandFlags (command : String) : List (Flag Meaning) :=
  [helpFlag, ⟨["--config"], true, .config⟩, ⟨["--output-directory"], true, .outputFolder⟩] ++
    if command == validateCommand then []
    else ⟨["--dry-run"], false, .dryRun⟩ ::
      Filter.all.map fun f => ⟨["--" ++ hyphened f.name], true, .filter f⟩

/-- What is said of a flag that has a value and takes none. -/
def ignoredValue (flag : Flag Meaning) (value : List Char) : String :=
  s!"argument {flag.title}: ignored explicit argument {quoted (String.ofList value)}"

/-- What is said of a flag that has no value and takes one. -/
def missingValue (flag : Flag Meaning) : String :=
  s!"argument {flag.title}: expected one argument"

/-- The flags that short names after one hyphen stand for, where none takes a value; with the
text from the first unknown name on. -/
def openTail (flags : List (Flag Meaning)) (flag : Flag Meaning) :
    List Char → Except String (List Meaning × List String)
  | [] => .ok ([flag.meaning], [])
  | c :: rest =>
    if c == '-' then .error (ignoredValue flag (c :: rest))
    else match flagNamed? flags ['-', c] with
      | none => .ok ([flag.meaning], [String.ofList ('-' :: c :: rest)])
      | some next =>
        match rest with
        | '=' :: value => .error (ignoredValue next value)
        | rest => (openTail flags next rest).map fun (ms, extras) => (flag.meaning :: ms, extras)

/-- The arguments with what a flag asks for. -/
def Arguments.use (a : Arguments) (meaning : Meaning) (value : List Char) :
    Except Stop Arguments :=
  let text := String.ofList value
  match meaning with
  | .help => .error .help
  | .version => .error .version
  | .config => .ok { a with config := some (Path.read text) }
  | .outputFolder => .ok { a with outputFolder := some (Path.read text) }
  | .dryRun => .ok { a with dryRun := true }
  | .filter filter => .ok { a with filters := a.filters.add filter text }

/-- Uses a flag that takes no value. Gives the arguments and what is left over. -/
def useSwitch (program : String) (flags : List (Flag Meaning)) (a : Arguments)
    (flag : Flag Meaning) (attached : Attached) : Except Stop (Arguments × List String) := do
  let (meanings, extras) ← match attached with
    | .nothing => pure ([flag.meaning], [])
    | .value value => .error (.refused program (ignoredValue flag value))
    | .tail tail => (openTail flags flag tail).mapError (Stop.refused program)
  let a ← meanings.foldlM (fun a meaning => a.use meaning []) a
  return (a, extras)

/-- Reads the arguments of a command. Gives what they ask for and what is left over. -/
def readFlags (program : String) (flags : List (Flag Meaning)) :
    Arguments → List (Argument Meaning) → Except Stop (Arguments × List String)
  | a, [] => .ok (a, [])
  | a, .plain text :: rest => do
    let (a, extras) ← readFlags program flags a rest
    return (a, text :: extras)
  | a, .unknown text :: rest => do
    let (a, extras) ← readFlags program flags a rest
    return (a, text :: extras)
  | a, .dashes :: rest => do
    let (a, extras) ← readFlags program flags a rest
    return (a, "--" :: extras)
  | a, .flag flag attached :: rest =>
    if flag.takesValue then
      match attached, rest with
      | .value value, rest => do readFlags program flags (← a.use flag.meaning value) rest
      | .tail value, rest => do readFlags program flags (← a.use flag.meaning value) rest
      | .nothing, .plain value :: rest => do
        readFlags program flags (← a.use flag.meaning value.toList) rest
      | .nothing, _ => .error (.refused program (missingValue flag))
    else do
      let (a, extras) ← useSwitch program flags a flag attached
      let (a, more) ← readFlags program flags a rest
      return (a, extras ++ more)

/-- Reads a command and its arguments. Gives what they ask for and what is left over. -/
def readCommand (command : String) (rest : List String) :
    Except Stop (Arguments × List String) := do
  if !commands.contains command then
    let choices := joined ", " (commands.map quoted)
    throw (.refused programName
      s!"argument command: invalid choice: {quoted command} (choose from {choices})")
  let program := s!"{programName} {command}"
  let flags := commandFlags command
  let arguments ← (classifyAll flags rest).mapError (Stop.refused program)
  readFlags program flags ⟨command, none, none, false, .none⟩ arguments

/-- Reads the arguments up to the command, each with its text, and then the command. -/
def readProgram (extras : List String) :
    List (Argument Meaning × String) → Except Stop (Arguments × List String)
  | [] => .error (.refused programName "the following arguments are required: command")
  | (.unknown text, _) :: rest => readProgram (extras ++ [text]) rest
  | (.flag flag attached, _) :: rest => do
    let (_, more) ← useSwitch programName programFlags ⟨"", none, none, false, .none⟩ flag attached
    readProgram (extras ++ more) rest
  | (.dashes, _) :: [] => readProgram extras []
  | (_, text) :: rest => do
    let (a, more) ← readCommand text (rest.map (·.2))
    return (a, extras ++ more)

/-- What a command line asks for. -/
def Arguments.read (words : List String) : Except Stop Arguments := do
  let arguments ← (classifyAll programFlags words).mapError (Stop.refused programName)
  let (a, extras) ← readProgram [] (arguments.zip words)
  if extras.isEmpty then return a
  throw (.refused programName ("unrecognized arguments: " ++ joined " " extras))

end ReleaseRunner.CommandLine
