import ReleaseRunner.Config.Model
import ReleaseRunner.Session.Roster

/-!
# Loading extensions

The listeners of the enabled extensions are made in the order of the configuration, each from
the installed extension of its name. When one cannot be made, or cannot be given its policy, those
that were registered before it are closed and its failure is the failure of loading.
-/

namespace ReleaseRunner.Session

open Config Log

/-- A listener that was made, and what it fails with where its policy is set, if it does. -/
structure Made where
  listener : Listener
  refusal : Option Failure

/-- Makes the listener of an installed extension from its properties. -/
def Extension.make (extension : Extension) (name : String) (properties : Members) : Run Made :=
  match extension with
  | .unloadable failure => raise failure
  | .factory make => do
    note (.factory name properties)
    match make properties with
    | .listener name tolerant script => return ⟨⟨name, tolerant, properties, script⟩, none⟩
    | .rigid name tolerant script failure =>
      return ⟨⟨name, tolerant, properties, script⟩, some failure⟩
    | .stranger =>
      throw (.release s!"Extension {Text.quoted name} did not produce a WorkflowListener")
    | .failure failure => raise failure

/-- Gives a listener its policy, if there is one to give. -/
def Made.adopt (made : Made) : Option Bool → Run Listener
  | none => return made.listener
  | some tolerant =>
    match made.refusal with
    | none => return { made.listener with tolerant := tolerant }
    | some failure => raise failure

/-- Loads an extension, if it is enabled. -/
def loadExtension (name : String) (spec : ExtensionSpec) : Run Unit := do
  if !spec.enabled then
    sayElsewhere rosterLogger .info "Extension disabled" [("extension", .text name)] false
    return
  match Json.lookup (← get).extensions name with
  | none => throw (.release s!"Extension {Text.quoted name} is not installed")
  | some extension =>
    let made ← extension.make name spec.properties
    let listener ← made.adopt spec.tolerant
    enlist listener
    sayElsewhere rosterLogger .info "Extension loaded"
      [("extension", .text name), ("continue_on_error", .bool listener.tolerant)] false

/-- A computation after whose failure, of whatever kind, the listeners are closed. -/
def closingOnFailure (x : Run Unit) : Run Unit := fun w =>
  match x.run w with
  | (.ok (), w) => (.ok (), w)
  | (.error f, w) => (do cleanup; throw f : Run Unit).run w

/-- Loads the extensions of a configuration. -/
def loadExtensions (specs : List (String × ExtensionSpec)) : Run Unit :=
  closingOnFailure (specs.forM fun (name, spec) => loadExtension name spec)

end ReleaseRunner.Session
