import PageBinding.Command
import PageBinding.Console
import PageBinding.Expression.Evaluate
import PageBinding.Workspace.Check
import PageBinding.Workspace.Edit

/-!
This module contains what commands do: each one prints lines, may change the disk, and ends in one
of a few ways.
-/

namespace PageBinding

variable [Limits]

variable [FileFormat]

namespace Command

inductive Ending where
  | done
  | invalidProps
  /-- The command line cannot be understood. -/
  | misused
  | reported (f : Failure)
  /-- A failure is passed on, as one that no user is expected to bring about. -/
  | escaped (f : Failure)
  deriving Repr

def Ending.exitStatus : Ending → Nat
  | .done => 0
  | .invalidProps => 1
  | .misused => 2
  | .reported f => f.exitStatus
  | .escaped _ => 1

structure Progress where
  lines : List Line
  disk : Disk

abbrev Run (α : Type) := ExceptT Ending (StateM Progress) α

namespace Run

variable {α : Type}

def printLines (lines : List Line) : Run Unit :=
  modify fun progress => { progress with lines := progress.lines ++ lines }

def expect (result : Except Failure α) : Run α :=
  match result with
  | .ok a => pure a
  | .error failure => throw (.escaped failure)

def attempt (result : Except Failure α) : Run α :=
  match result with
  | .ok a => pure a
  | .error failure => throw (if failure.isReported then .reported failure else .escaped failure)

def print (pieces : List Text) : Run Unit := do
  printLines (← expect (Console.styled (Text.concat pieces)))

def echo (t : Text) : Run Unit := do
  printLines (← expect (Console.plain t))

end Run

structure Context where
  working : Location
  supplies : IdSupplies
  file : Option Text

def load (context : Context) : Run Workspace := do
  Run.attempt (Workspace.load (← get).disk context.supplies context.working context.file)

def keep (w : Workspace) : Run Unit := do
  modify fun progress => { progress with disk := w.record progress.disk }
  let disk ← Run.attempt (w.save (← get).disk)
  modify fun progress => { progress with disk }

def edit {α : Type} (context : Context) (operation : Workspace → Except Failure α × Service) :
    Run α := do
  let w ← load context
  let (result, service) := operation w
  let a ← Run.attempt result
  keep { w with service }
  return a

def checkProperty (w : Workspace) (p : Property) : Run Bool := do
  let problems ← Run.expect (w.problems p)
  problems.forM fun problem =>
    Run.print [
      "[red]✗[/red] ", p.instanceId, ".", p.name, " (", p.id, "): ", Markup.escape problem]
  return !problems.isEmpty

def runCheck (context : Context) : Run Unit := do
  let w ← load context
  let props := w.service.store.collections.propertyList
  let failed ← props.filterM (checkProperty w)
  if failed.isEmpty then
    Run.print ["[green]✓[/green] ", Text.ofNat props.length, " props ok"]
  else
    Run.print ["[red]", Text.ofNat failed.length, " invalid prop(s)[/red]"]
    throw .invalidProps

def colourOf : Content → Text
  | .value _ => "green"
  | .resource _ => "blue"
  | .parameter => "magenta"

def kindOf (v : Variable) : Text :=
  let colour := colourOf v.content
  Text.concat ["[", colour, "]", v.content.kindName, "[/", colour, "]"]

def variableColumns (vars : List Variable) : List (List Text) := [
  "ID" :: vars.map Variable.id,
  "Name" :: vars.map Variable.name,
  "Kind" :: vars.map kindOf]

def previewOf (v : Variable) : Except Failure Text :=
  match v.literal? with
  | some value => Expression.preview value
  | none => .ok []

def runScope (context : Context) (instanceId : Text) : Run Unit := do
  let w ← load context
  let selector ← Run.attempt (w.project.selector instanceId)
  let vars ← Run.expect (w.service.visible (some selector))
  if vars.isEmpty then
    Run.print ["[yellow]No variables visible at ", instanceId, "[/yellow]"]
  else
    let previews ← Run.expect (vars.mapM previewOf)
    let scopes : List Text := "Scope" :: vars.map Variable.scope
    let values : List Text := "Value" :: previews
    Run.printLines (← Run.expect (Console.table (variableColumns vars ++ [scopes, values])))

def yesOrNo (b : Bool) : Text :=
  if b then "yes" else "no"

def usageOf (service : Service) (vars : List Variable) :
    Except Failure (List (Bool × Bool)) × Service :=
  match vars with
  | [] => (.ok [], service)
  | v :: rest =>
    let (isUsed, service) := service.ask fun tracker store => tracker.isUsed store v.id
    let (isDeletable, service) := service.isDeletable v
    let (others, service) := usageOf service rest
    (do return (← isUsed, ← isDeletable) :: (← others), service)

def runUsage (context : Context) : Run Unit := do
  let w ← load context
  let vars := w.service.store.collections.variableList
  if vars.isEmpty then
    Run.print ["[yellow]No variables found[/yellow]"]
  else
    let answers ← Run.expect (usageOf w.service vars).1
    let used : List Text := "Used" :: answers.map fun answer => yesOrNo answer.1
    let deletable : List Text := "Deletable" :: answers.map fun answer => yesOrNo answer.2
    Run.printLines (← Run.expect (Console.table (variableColumns vars ++ [used, deletable])))

def runEval (text : Text) : Run Unit := do
  let value ← Run.attempt (Expression.evaluate text)
  Run.echo (← Run.expect (Expression.format value))

def runSetValue (context : Context) (instanceId name text : Text) (variableId : Option Text) :
    Run Unit := do
  let saved ← edit context fun w => w.setValue instanceId name text variableId
  let value ← Run.expect (saved.literal?.mapM Expression.format)
  Run.print ["[green]✓[/green] Saved [cyan]", saved.id, "[/cyan] ", saved.name]
  value.forM Run.echo

def runDelete (context : Context) (variableId : Text) : Run Unit := do
  edit context fun w => w.delete variableId
  Run.print ["[green]✓[/green] Deleted [cyan]", variableId, "[/cyan]"]

def runBind (context : Context) (instanceId name variableId : Text) : Run Unit := do
  let (v, p) ← edit context fun w => w.bind instanceId name variableId
  Run.print [
    "[green]✓[/green] Bound ", instanceId, ".", name, " to ", v.name, " ([cyan]", p.id, "[/cyan])"]

def runExpr (context : Context) (instanceId name text : Text) (type : Option Text) : Run Unit := do
  let declared := type.map PropertyMeta.ofType
  match ← edit context fun w => w.setExpression instanceId name text declared with
  | none => Run.print ["[green]✓[/green] Removed ", instanceId, ".", name]
  | some p =>
    match p.value with
    | .expression _ => Run.print ["[green]✓[/green] Set ", instanceId, ".", name]
    | value =>
      Run.print ["[green]✓[/green] Reset ", instanceId, ".", name, " to ", value.kindName]

def run (context : Context) : Command → Run Unit
  | .check => runCheck context
  | .scope instanceId => runScope context instanceId
  | .usage => runUsage context
  | .eval text => runEval text
  | .setValue instanceId name text variableId => runSetValue context instanceId name text variableId
  | .delete variableId => runDelete context variableId
  | .bind instanceId name variableId => runBind context instanceId name variableId
  | .expr instanceId name text type => runExpr context instanceId name text type

def versionText : Text :=
  "varbind 0.1.0"

def helpText : Text :=
  "Usage: varbind [--version] check | scope | usage | eval | set-value | delete | bind | expr"

def runRequest (working : Location) (supplies : IdSupplies) : Option Request → Run Unit
  | none => throw .misused
  | some .version => Run.echo versionText
  | some .help => Run.echo helpText
  | some (.run command file) => run ⟨working, supplies, file⟩ command

structure Report where
  lines : List Line
  ending : Ending
  disk : Disk

def execute (disk : Disk) (working : Location) (supplies : IdSupplies) (args : List Text) :
    Report :=
  match (runRequest working supplies (request? args)).run.run ⟨[], disk⟩ with
  | (.ok (), progress) => ⟨progress.lines, .done, progress.disk⟩
  | (.error ending, progress) => ⟨progress.lines, ending, progress.disk⟩

def errorLine (f : Failure) : Text :=
  let markup := Text.concat ["[red]Error:[/red] ", Markup.escape f.message]
  match Console.linesOf markup with
  | .ok (line :: _) => line
  | _ => []

end Command

end PageBinding
