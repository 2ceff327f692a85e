import PageBinding.Proofs.Command.Outcome
import PageBinding.Proofs.Workspace.Load

/-!
This module contains how commands end whose project cannot be loaded: nothing is printed, nothing is
changed on the disk, and the user is told what is wrong with the project file, but not what is wrong
with the settings.
-/

namespace PageBinding

namespace Command

def loads : Command → Bool
  | .eval _ => false
  | .check | .scope _ | .usage | .setValue .. | .delete _ | .bind .. | .expr .. => true

section Keep

variable [FileFormat] {context : Context} {command : Command} {progress : Progress}
  {failure : Failure}

theorem exec_load_bind {α : Type} (next : Workspace → Run α)
    (h : Workspace.load progress.disk context.supplies context.working context.file =
      .error failure) :
    (load context >>= next).exec progress = (.error (.ofFailure failure), progress) := by
  rw [Run.exec_bind, exec_load_of_error h]

theorem exec_edit_bind {α : Type} (operation : Workspace → Except Failure α × Service)
    (next : α → Run Unit)
    (h : Workspace.load progress.disk context.supplies context.working context.file =
      .error failure) :
    (edit context operation >>= next).exec progress = (.error (.ofFailure failure), progress) := by
  rw [edit, bind_assoc]
  exact exec_load_bind _ h

variable [Limits]

theorem exec_run_of_load_error (hloads : command.loads = true)
    (h : Workspace.load progress.disk context.supplies context.working context.file =
      .error failure) :
    (run context command).exec progress = (.error (.ofFailure failure), progress) := by
  cases command with
  | eval text => cases hloads
  | check | scope instanceId | usage => exact exec_load_bind _ h
  | setValue instanceId name text variableId => exact exec_edit_bind _ _ h
  | delete variableId => exact exec_edit_bind _ _ h
  | bind instanceId name variableId => exact exec_edit_bind _ _ h
  | expr instanceId name text type => exact exec_edit_bind _ _ h

section Execute

variable (disk : Disk) (working : Location) (supplies : IdSupplies) {args : List Text}
  {file : Option Text}

theorem execute_of_load_error (h : request? args = some (.run command file))
    (hloads : command.loads = true)
    (herror : Workspace.load disk supplies working file = .error failure) :
    execute disk working supplies args = ⟨[], .ofFailure failure, disk⟩ := by
  have hrun : (run ⟨working, supplies, file⟩ command).exec ⟨[], disk⟩ =
      (.error (.ofFailure failure), ⟨[], disk⟩) := exec_run_of_load_error hloads herror
  rw [execute, exec_runRequest working supplies h, hrun]

/--
The project of a command is loaded, or the command prints nothing and leaves the disk alone. Then it
reports what is wrong with the project file and ends with status two, unless the file cannot be read
or there is nothing wrong with it but with the settings: a failure that is passed on and not
reported.
-/
theorem execute_loading (h : request? args = some (.run command file))
    (hloads : command.loads = true) :
    let report := execute disk working supplies args
    (∃ w, Workspace.load disk supplies working file = .ok w) ∨
      (∃ path fault,
        Workspace.load disk supplies working file = .error (.projectFile path fault) ∧
          report = ⟨[], .reported (.projectFile path fault), disk⟩ ∧
            report.ending.exitStatus = 2) ∨
      ∃ failure, Workspace.Unreported disk supplies working file failure ∧
        Workspace.load disk supplies working file = .error failure ∧
          report = ⟨[], .escaped failure, disk⟩ ∧ report.ending.exitStatus = 1 := by
  rcases hload : Workspace.load disk supplies working file with failure | w
  . have hexecute := execute_of_load_error disk working supplies h hloads hload
    rcases Workspace.load_eq_error_cases hload with ⟨path, fault, rfl⟩ | hunreported
    . rw [hexecute]
      exact .inr (.inl ⟨path, fault, rfl, rfl, rfl⟩)
    . have hending : Ending.ofFailure failure = .escaped failure := by
        rw [Ending.ofFailure, hunreported.isReported_eq]
        rfl
      rw [hexecute, hending]
      exact .inr (.inr ⟨failure, hunreported, rfl, rfl, rfl⟩)
  . exact .inl ⟨w, rfl⟩

end Execute

end Keep

/--
A disk with a page, and settings above it whose effects are no list.
-/
def spoiltDisk : Disk where
  root := "/site"
  made := []
  files := [
    (["varbind.project.yaml"], .data (.object [
      ("instances", .list [.object [("id", .text "body"), ("component", .text "Body")]])])),
    (["varbind.yaml"], .data (.object [("effects", .text "bad")]))]

def spoiltFailure : Failure :=
  .invalidData [⟨[.field "effects"], .notList⟩]

theorem load_spoiltDisk : Workspace.load spoiltDisk ⟨⟨"v", 0⟩, ⟨"t", 0⟩⟩ [] none =
    .error spoiltFailure := by
  rfl

theorem execute_loading_spoiltDisk :
    request? ["check"] = some (.run .check none) ∧ loads .check = true ∧
      execute spoiltDisk [] ⟨⟨"v", 0⟩, ⟨"t", 0⟩⟩ ["check"] =
        ⟨[], .escaped spoiltFailure, spoiltDisk⟩ := by
  have hrequest : request? ["check"] = some (.run .check none) := rfl
  refine ⟨hrequest, rfl, ?_⟩
  rcases execute_loading spoiltDisk [] ⟨⟨"v", 0⟩, ⟨"t", 0⟩⟩ hrequest rfl with
    ⟨w, hload⟩ | ⟨path, fault, hload, -⟩ | ⟨failure, -, hload, hreport, -⟩
  . rw [load_spoiltDisk] at hload
    cases hload
  . rw [load_spoiltDisk] at hload
    cases hload
  . rw [load_spoiltDisk] at hload
    cases hload
    exact hreport

/--
The settings of the page fail to load, and nobody is told.
-/
theorem not_forall_load_reported :
    ¬ ∀ (disk : Disk) (supplies : IdSupplies) (working : Location) (given : Option Text)
      (failure : Failure), Workspace.load disk supplies working given = .error failure →
        failure.isReported = true := by
  intro h
  have hreported := h _ _ _ _ _ load_spoiltDisk
  cases hreported

end Command

end PageBinding
