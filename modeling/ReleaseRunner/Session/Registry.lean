import ReleaseRunner.Session.Dispatch

/-!
# Performers of stages

A registry maps stages to what performs them; the last performer of a stage counts. A stage
without one has nothing to do.
-/

namespace ReleaseRunner.Session

open Log

/-- The logger of the registry. -/
def registryLogger : String := "workflow.commands"

/-- The performers of stages. -/
abbrev Registry := List (Stage × Handler)

namespace Registry

/-- The performer of a stage. -/
def handler? (registry : Registry) (stage : Stage) : Option Handler :=
  registry.lookup stage

/-- The registry with a performer for a stage. -/
def put (registry : Registry) (stage : Stage) (handler : Handler) : Registry :=
  (stage, handler) :: registry.filter (·.1 ≠ stage)

/-- A stage is performed under a name. -/
def knows (registry : Registry) (name : String) : Bool :=
  registry.any (·.1.name == name)

/-- The registry of a list of performers. -/
def ofList (handlers : List (Stage × Handler)) : Registry :=
  handlers.foldl (fun registry (stage, handler) => registry.put stage handler) []

end Registry

/-- The stage of a name that has to be one. -/
def stageNamed (name : String) : Except Failure Stage :=
  match Stage.ofName? name with
  | some stage => .ok stage
  | none => .error (.plain .value s!"{Text.quoted name} is not a valid Command")

/-- Registers a performer; one that another gives way to is logged. -/
def registerHandler (registry : Registry) (stage : Stage) (handler : Handler) :
    Run Registry := do
  if (registry.handler? stage).isSome then
    sayElsewhere registryLogger .warning "Replacing step handler"
      [("command", .text stage.name)] false
  return registry.put stage handler

/-- Registers the installed performer of a name. Names of no stage are logged and left alone. -/
def registerPlugin (registry : Registry) (name : String) (plugin : StepPlugin) :
    Run Registry := do
  match Stage.ofName? name with
  | none =>
    sayElsewhere registryLogger .warning "Ignoring step for unknown command"
      [("entry_point", .text name)] false
    return registry
  | some stage =>
    match plugin with
    | .unloadable failure => raise failure
    | .performer actions => registerHandler registry stage ⟨name, actions⟩

/-- The registry of all installed performers. -/
def installedRegistry : Run Registry := do
  (← get).steps.foldlM (fun registry (name, plugin) => registerPlugin registry name plugin) []

/-! ## Items -/

/-- A unit of work in a workflow: a stage and what performs it. -/
structure Item where
  stage : Stage
  handler : Option Handler

/-- The item of a stage. -/
def Registry.item (registry : Registry) (stage : Stage) : Item :=
  ⟨stage, registry.handler? stage⟩

/-- Performs an item. -/
def Item.invoke (item : Item) : Run Unit :=
  match item.handler with
  | some handler => do
    note (.call (.invoke handler.label))
    perform handler.actions
  | none => inform "Nothing to do for %s" [.text item.stage.name] []

/-- The items of the workflow of a name. -/
def Registry.plan (registry : Registry) (name : String) : Except Failure (List Item) :=
  match Plan.stages? name with
  | some stages => .ok (stages.map registry.item)
  | none => .error (.missingKey name)

end ReleaseRunner.Session
