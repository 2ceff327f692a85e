import PageBinding.Proofs.Command.Outcome
import PageBinding.Proofs.Workspace.Named

/-!
This module contains that neither the check nor the setting of an expression ends for want of an
identifier, as long as the instances that they look at see no variable with an empty id.
-/

namespace PageBinding

namespace Command

open Traversal

namespace Run

variable {α β : Type} {allowed : Ending → Prop}

/--
A part of a command ends it only in ways that are allowed.
-/
def EndsOnly (allowed : Ending → Prop) (run : Run α) : Prop :=
  ∀ progress, FailsOnly allowed (run.exec progress).1

namespace EndsOnly

theorem pure (a : α) : EndsOnly allowed (pure a) :=
  fun _ => .ok a

theorem throw {ending : Ending} (h : allowed ending) :
    EndsOnly allowed (throw ending : Run α) :=
  fun _ => .error h

theorem bind {run : Run α} {next : α → Run β} (h : run.EndsOnly allowed)
    (hnext : ∀ a, (next a).EndsOnly allowed) : (run >>= next).EndsOnly allowed := by
  intro progress
  have hrun := h progress
  rw [exec_bind]
  rcases heq : run.exec progress with ⟨ending | a, progress'⟩
  . rw [heq] at hrun
    exact .error (hrun ending rfl)
  . exact hnext a progress'

theorem printLines (lines : List Line) : (printLines lines).EndsOnly allowed :=
  fun _ => .ok ()

theorem expect {result : Except Failure α}
    (h : FailsOnly (fun failure => allowed (.escaped failure)) result) :
    (expect result).EndsOnly allowed := by
  cases result with
  | ok a => exact .pure a
  | error failure => exact .throw (h failure rfl)

theorem forM {f : α → Run Unit} {as : List α} (h : ∀ a ∈ as, (f a).EndsOnly allowed) :
    (as.forM f).EndsOnly allowed := by
  induction as with
  | nil => exact .pure ()
  | cons a rest ih =>
    exact (h a List.mem_cons_self).bind fun _ => ih fun b hb => h b (List.mem_cons_of_mem _ hb)

theorem filterM {f : α → Run Bool} {as : List α} (h : ∀ a ∈ as, (f a).EndsOnly allowed) :
    (as.filterM f).EndsOnly allowed := by
  have haux (kept : List α) : (as.filterAuxM f kept).EndsOnly allowed := by
    induction as generalizing kept with
    | nil => exact .pure _
    | cons a rest ih =>
      refine (h a List.mem_cons_self).bind fun _ => ?_
      exact ih (fun b hb => h b (List.mem_cons_of_mem _ hb)) _
  exact (haux []).bind fun _ => .pure _

end EndsOnly

theorem endsOnly_print (pieces : List Text) : (print pieces).EndsOnly (· ≠ .escaped .emptyId) := by
  refine EndsOnly.bind (.expect (.bind ((Markup.failsOnly_linesOf _).mono ?_) fun lines => ?_))
    .printLines
  . intro failure hmarkup heq
    cases heq
    cases hmarkup
  . refine fun _ => (Console.failsOnly_encoded _ _).mono ?_
    rintro _ ⟨t, rfl⟩
    exact nofun

end Run

theorem endsOnly_checkProperty [Limits] {w : Workspace} {p : Property}
    (h : FailsOnly (· ≠ .emptyId) (w.problems p)) :
    (checkProperty w p).EndsOnly (· ≠ .escaped .emptyId) := by
  refine Run.EndsOnly.bind (.expect (h.mono ?_)) fun problems => ?_
  . intro failure hne heq
    cases heq
    exact hne rfl
  . exact Run.EndsOnly.bind (.forM fun _ _ => Run.endsOnly_print _) fun _ => .pure _

section Keep

variable [FileFormat] {context : Context} {progress : Progress} {w : Workspace}

theorem endsOnly_keep (w : Workspace) : (keep w).EndsOnly (· ≠ .escaped .emptyId) := by
  intro progress
  rw [exec_keep]
  split
  . next fault _ => cases fault <;> exact .error nofun
  . exact .ok ()

section Load

variable (hload : Workspace.load progress.disk context.supplies context.working context.file =
  .ok w)
include hload

theorem failsOnly_runCheck [Limits]
    (h : ∀ p ∈ w.service.store.collections.propertyList,
      FailsOnly (· ≠ .emptyId) (w.problems p)) :
    FailsOnly (· ≠ .escaped .emptyId) ((runCheck context).exec progress).1 := by
  unfold runCheck
  rw [Run.exec_bind, exec_load_of_ok hload]
  dsimp only
  refine Run.EndsOnly.bind (.filterM fun p hp => endsOnly_checkProperty (h p hp))
    (fun failed => ?_) progress
  split
  . exact Run.endsOnly_print _
  . exact (Run.endsOnly_print _).bind fun _ => .throw nofun

theorem failsOnly_edit_bind {α : Type} {operation : Workspace → Except Failure α × Service}
    {next : α → Run Unit} (h : FailsOnly (· ≠ .emptyId) (operation w).1)
    (hnext : ∀ a, (next a).EndsOnly (· ≠ .escaped .emptyId)) :
    FailsOnly (· ≠ .escaped .emptyId) ((edit context operation >>= next).exec progress).1 := by
  unfold edit
  rw [bind_assoc, Run.exec_bind, exec_load_of_ok hload]
  rcases hoperation : operation w with ⟨failure | a, service⟩
  . rw [hoperation] at h
    simp only [hoperation, bind_assoc]
    rw [Run.exec_bind, exec_attempt_error]
    refine .error ?_
    unfold Ending.ofFailure
    split
    . exact nofun
    . intro heq
      cases heq
      exact h _ rfl rfl
  . simp only [hoperation]
    have hkeep : (Run.attempt (.ok a) >>= fun a => keep { w with service } >>= fun _ =>
        pure a : Run α).EndsOnly (· ≠ .escaped .emptyId) :=
      .bind (.pure a) fun a => (endsOnly_keep _).bind fun _ => .pure a
    exact hkeep.bind hnext progress

theorem failsOnly_runExpr [Limits] {instanceId name text : Text} {type : Option Text}
    (h : ∀ declared,
      FailsOnly (· ≠ .emptyId) (w.setExpression instanceId name text declared).1) :
    FailsOnly (· ≠ .escaped .emptyId)
      ((runExpr context instanceId name text type).exec progress).1 := by
  refine failsOnly_edit_bind hload (h _) fun p => ?_
  split
  . exact Run.endsOnly_print _
  . split <;> exact Run.endsOnly_print _

end Load

end Keep

theorem ending_execute [Limits] [FileFormat] {disk : Disk} {working : Location}
    {supplies : IdSupplies}
    {args : List Text} {command : Command} {file : Option Text} {allowed : Ending → Prop}
    (hrequest : request? args = some (.run command file)) (hdone : allowed .done)
    (h : FailsOnly allowed ((run ⟨working, supplies, file⟩ command).exec ⟨[], disk⟩).1) :
    allowed (execute disk working supplies args).ending := by
  rcases (execute_run disk working supplies hrequest).2 with ⟨-, heq⟩ | herror
  . rw [heq]
    exact hdone
  . exact h _ herror

/--
In a project that has been loaded the variables that an instance sees have aliases if none of them
has an empty id, one for each of them, from which their ids are got back. Where this is so of all
instances that the check or the setting of an expression looks at, neither ends for want of an
identifier.
-/
theorem execute_named [Limits] [FileFormat] {disk : Disk} {supplies : IdSupplies}
    {working : Location}
    {file : Option Text} {w : Workspace}
    (hload : Workspace.load disk supplies working file = .ok w) :
    (∀ instanceId selector, w.project.selector instanceId = .ok selector →
      ∃ vars, w.service.visible (some selector) = .ok vars ∧
        (∀ v, v ∈ vars ↔ v ∈ w.project.vars ∧
          Scope.IsShown w.project.tree w.service.settings.collectionComponent selector v) ∧
        (Scope.aliases vars = .error .emptyId ↔ ∃ v ∈ vars, v.id = []) ∧
        ((∀ v ∈ vars, v.id ≠ []) →
          ∃ aliases, Scope.aliases vars = .ok aliases ∧ Scope.Names vars aliases)) ∧
    ∀ args,
      (request? args = some (.run .check file) →
        (∀ p ∈ w.project.props, (∀ type value, p.value ≠ .literal type value) →
          w.Names p.instanceId) →
        (execute disk working supplies args).ending ≠ .escaped .emptyId) ∧
      ∀ instanceId name text type,
        request? args = some (.run (.expr instanceId name text type) file) →
        w.Names instanceId →
        (execute disk working supplies args).ending ≠ .escaped .emptyId := by
  have hfiled := (Workspace.fresh_of_load hload).1
  refine ⟨fun _ selector _ => Workspace.exists_names_of_load hload selector, fun args => ⟨?_, ?_⟩⟩
  . intro hrequest hnames
    refine ending_execute hrequest nofun (failsOnly_runCheck hload fun p hp => ?_)
    rw [Workspace.propertyList_of_load hload] at hp
    exact Workspace.failsOnly_problems hfiled (hnames p hp)
  . intro instanceId name text type hrequest hnames
    refine ending_execute hrequest nofun (failsOnly_runExpr hload fun declared => ?_)
    exact Workspace.failsOnly_setExpression hfiled hnames name text declared

def sizedProject (variableId : Text) : Project where
  instances := [⟨"body", "Body", none, none⟩]
  vars := [⟨variableId, "size", "body", .value (.number (.int 1))⟩]
  resources := []
  props := [⟨"p", "body", "label", .expression "1 + 1"⟩]

def sizedDisk (variableId : Text) : Disk where
  root := "/site"
  made := []
  files := [(["varbind.project.yaml"], .data ((sizedProject variableId).fileWith
    (sizedProject variableId).toCollections))]

def sizedWorkspace (variableId : Text) : Workspace :=
  ⟨["varbind.project.yaml"], sizedProject variableId,
    .new ((sizedProject variableId).toStore ⟨"v", 0⟩ ⟨"t", 0⟩) default⟩

theorem selector_sizedProject (variableId : Text) :
    (sizedProject variableId).selector "body" = .ok ["body"] :=
  (Project.selector_eq_climb List.mem_cons_self).trans
    (Project.climb_of_none List.not_mem_nil rfl)

theorem load_sizedDisk_one : Workspace.load (sizedDisk "one") ⟨⟨"v", 0⟩, ⟨"t", 0⟩⟩ [] none =
    .ok (sizedWorkspace "one") := by
  rfl

theorem load_sizedDisk_empty : Workspace.load (sizedDisk []) ⟨⟨"v", 0⟩, ⟨"t", 0⟩⟩ [] none =
    .ok (sizedWorkspace []) := by
  rfl

theorem execute_named_sizedDisk :
    Workspace.load (sizedDisk "one") ⟨⟨"v", 0⟩, ⟨"t", 0⟩⟩ [] none = .ok (sizedWorkspace "one") ∧
      (∃ vars aliases, (sizedWorkspace "one").service.visible (some ["body"]) = .ok vars ∧
        vars ≠ [] ∧ Scope.aliases vars = .ok aliases ∧ Scope.Names vars aliases) ∧
      (execute (sizedDisk "one") [] ⟨⟨"v", 0⟩, ⟨"t", 0⟩⟩ ["check"]).ending ≠
        .escaped .emptyId := by
  have hload := load_sizedDisk_one
  have hids : ∀ v ∈ (sizedProject "one").vars, v.id ≠ [] := by decide
  have hnames := Workspace.names_of_load hload hids
  have hselector := selector_sizedProject "one"
  obtain ⟨hseen, hending⟩ := execute_named hload
  obtain ⟨vars, hvisible, -, -, haliases⟩ := hseen "body" ["body"] hselector
  obtain ⟨aliases, hdefined, hnamed⟩ := haliases (hnames "body" _ vars hselector hvisible)
  refine ⟨hload, ⟨vars, aliases, hvisible, ?_, hdefined, hnamed⟩, ?_⟩
  . rintro rfl
    cases hvisible
  . exact (hending ["check"]).1 rfl fun p _ _ => hnames p.instanceId

/--
A project that is loaded may have a variable that cannot be named.
-/
theorem not_forall_load_names :
    ¬ ∀ (disk : Disk) (supplies : IdSupplies) (working : Location) (file : Option Text)
      (w : Workspace) (instanceId : Text) (selector : Selector) (vars : List Variable),
      Workspace.load disk supplies working file = .ok w →
        w.project.selector instanceId = .ok selector →
          w.service.visible (some selector) = .ok vars →
            ∃ aliases, Scope.aliases vars = .ok aliases := by
  intro h
  obtain ⟨aliases, haliases⟩ := h _ _ _ _ _ _ _ (sizedProject []).vars load_sizedDisk_empty
    (selector_sizedProject []) rfl
  have hempty : ∃ v ∈ (sizedProject []).vars, v.id = [] := ⟨_, List.mem_cons_self, rfl⟩
  rw [Scope.aliases_eq_error_iff.mpr hempty] at haliases
  cases haliases

end Command

end PageBinding
