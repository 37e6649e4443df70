import ReleaseRunner.Config.Schema
import ReleaseRunner.Files.Tree
import ReleaseRunner.Json.Reader

/-!
# The configuration of a release

A configuration names the project, the commands to run around a session, and the extensions to
load. What a single stage needs is no part of it.
-/

namespace ReleaseRunner.Config

open ReleaseRunner.Number

/-- The project that is released. -/
structure Project where
  name : String
  version : String
  versionPattern : String
deriving Repr, DecidableEq

/-- The scopes of events that a hook is for. -/
structure ScopeFilter where
  includes : List String
  excludes : List String
deriving Repr, DecidableEq

/-- The filter lets a scope through. A scope that is excluded never passes; where nothing is
included by name, all other scopes do. -/
def ScopeFilter.admits (filter : ScopeFilter) (scope : String) : Bool :=
  !filter.excludes.contains scope &&
    (filter.includes.isEmpty || filter.includes.contains scope)

/-- A platform is selected by the list of a hook. The entries are beginnings of platform names;
one after an exclamation mark excludes, and where all entries exclude, every other platform is
selected. -/
def selectsPlatform (entries : List String) (platform : String) : Bool :=
  let (excluding, including) := entries.partition (·.startsWith "!")
  let begins (entry : List Char) := entry.isPrefixOf platform.toList
  !excluding.any (fun entry => begins (entry.toList.drop 1)) &&
    (including.isEmpty || including.any (begins ·.toList))

/-- A command to run when an event is fired. -/
structure Hook where
  command : String
  scopes : ScopeFilter
  tolerant : Bool
  verbose : Bool
  platforms : List String
  timeout : Option Binary64
deriving Repr, DecidableEq

/-- The hook is meant for a scope and a platform. -/
def Hook.selected (hook : Hook) (scope platform : String) : Bool :=
  hook.scopes.admits scope && selectsPlatform hook.platforms platform

/-- The hooks of a configuration, by the phase of the event, and what they find in their
environment. -/
structure Hooks where
  enabled : Bool
  environment : List (String × String)
  before : List Hook
  success : List Hook
  failure : List Hook
deriving Repr, DecidableEq

/-- How an installed extension is used. The listener's own tolerance may be overridden. -/
structure ExtensionSpec where
  enabled : Bool
  tolerant : Option Bool
  properties : Members

/-- The configuration of a release. -/
structure Model where
  project : Project
  hooks : Hooks
  extensions : List (String × ExtensionSpec)

/-! ## Reading -/

/-- The name of the document in fault reports. -/
def modelTitle : String := "ReleaseModel"

/-- The project of a document. -/
def readProject : Reader Project :=
  record fun m =>
    (.ok Project.mk : Checked _)
    |> along (required m "name" text)
    |> along (required m "version" text)
    |> along (optional m "version_pattern" "SEMVER" text)
    |> andNoOthers m ["name", "version", "version_pattern"]

/-- The scopes of a hook. -/
def readScopeFilter : Reader ScopeFilter :=
  record fun m =>
    (.ok ScopeFilter.mk : Checked _)
    |> along (optional m "includes" [] (list text))
    |> along (optional m "excludes" [] (list text))

/-- A hook. -/
def readHook : Reader Hook :=
  record fun m =>
    (.ok Hook.mk : Checked _)
    |> along (required m "cmd" text)
    |> along (optional m "filter" ⟨[], []⟩ readScopeFilter)
    |> along (optional m "continue_on_error" false truth)
    |> along (optional m "verbose" false truth)
    |> along (optional m "platforms" [] (list text))
    |> along (optional m "timeout_seconds" none (nullable positive))
    |> andNoOthers m
      ["cmd", "filter", "continue_on_error", "verbose", "platforms", "timeout_seconds"]

/-- The hooks of the three phases. -/
def readHookLists : Reader (List Hook × List Hook × List Hook) :=
  record fun m =>
    (.ok (fun before success failure => (before, success, failure)) : Checked _)
    |> along (optional m "before" [] (list readHook))
    |> along (optional m "success" [] (list readHook))
    |> along (optional m "failure" [] (list readHook))

/-- The section about hooks; without one, hooks are enabled and there are none. -/
def readHooks : Reader Hooks :=
  record fun m =>
    (.ok (fun enabled environment lists =>
      ⟨enabled, environment, lists.1, lists.2.1, lists.2.2⟩) : Checked _)
    |> along (optional m "enabled" true truth)
    |> along (optional m "environment" [] (mapping text))
    |> along (optional m "command" ([], [], []) readHookLists)

/-- The use of an extension. -/
def readExtension : Reader ExtensionSpec :=
  record fun m =>
    (.ok ExtensionSpec.mk : Checked _)
    |> along (optional m "enabled" true truth)
    |> along (optional m "continue_on_error" none (nullable truth))
    |> along (optional m "properties" [] (mapping anything))

/-- The configuration that a value stands for. -/
def readModel : Reader Model :=
  record fun m =>
    (.ok Model.mk : Checked _)
    |> along (required m "project" readProject)
    |> along (optional m "hooks" ⟨true, [], [], [], []⟩ readHooks)
    |> along (optional m "extensions" [] (mapping readExtension))

/-- The configuration that a text writes. -/
def Model.read (text : String) : Checked Model :=
  match Json.read? text with
  | some json => readModel json
  | none => breach .validJson

/-- The configuration that a file holds. -/
def Model.load (tree : Files.Tree) (file : Files.Path) : Except Failure Model := do
  let text ← tree.readText file
  (Model.read text).mapError (Failure.malformed modelTitle)

end ReleaseRunner.Config
