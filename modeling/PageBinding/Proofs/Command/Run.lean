import PageBinding.Command.Run
import PageBinding.Proofs.Workspace.Run

/-!
This module contains what commands do: the check counts the props that something is wrong with, and
commands that edit nothing leave the disk alone.
-/

namespace PageBinding

theorem Project.fileWith_withCollections {p : Project} {c : Collections} (h : c.Filed) :
    (p.withCollections c).fileWith (p.withCollections c).toCollections = p.fileWith c := by
  rw [toCollections_withCollections h]
  rfl

theorem Workspace.eq_ofProject_of_load [FileFormat] {disk : Disk} {supplies : IdSupplies}
    {working : Location} {given : Option Text} {w : Workspace}
    (h : load disk supplies working given = .ok w) :
    ∃ supplies', w =
      { ofProject w.project w.service.settings supplies' with location := w.location } := by
  unfold load at h
  obtain ⟨⟨path, location⟩, -, h⟩ := Traversal.bind_eq_ok_iff.mp h
  obtain ⟨⟨p, ids⟩, -, h⟩ := Traversal.bind_eq_ok_iff.mp h
  obtain ⟨settings, -, h⟩ := Traversal.bind_eq_ok_iff.mp h
  cases h
  exact ⟨⟨ids, supplies.transactions⟩, rfl⟩

theorem Workspace.after_of_load [Limits] [FileFormat] {disk : Disk} {supplies : IdSupplies}
    {working : Location} {given : Option Text} {w : Workspace}
    (h : load disk supplies working given = .ok w) :
    ∃ supplies', ∀ command,
      w.after command = (ofProject w.project w.service.settings supplies').after command := by
  obtain ⟨supplies', heq⟩ := eq_ofProject_of_load h
  refine ⟨supplies', fun command => ?_⟩
  rw [heq]
  cases command <;> rfl

namespace Command

namespace Run

variable {α β : Type}

def exec (run : Run α) (progress : Progress) : Except Ending α × Progress :=
  run.run.run progress

theorem exec_pure (a : α) (progress : Progress) :
    (pure a : Run α).exec progress = (.ok a, progress) :=
  rfl

theorem exec_bind (run : Run α) (next : α → Run β) (progress : Progress) :
    (run >>= next).exec progress =
      match run.exec progress with
      | (.error ending, progress) => (.error ending, progress)
      | (.ok a, progress) => (next a).exec progress := by
  simp only [exec, ExceptT.run_bind, StateT.run_bind]
  rcases StateT.run (ExceptT.run run) progress with ⟨_ | a, progress'⟩ <;> rfl

theorem exec_bind_eq_ok_iff {run : Run α} {next : α → Run β} {progress progress' : Progress}
    {b : β} :
    (run >>= next).exec progress = (.ok b, progress') ↔
      ∃ a mid, run.exec progress = (.ok a, mid) ∧ (next a).exec mid = (.ok b, progress') := by
  rw [exec_bind]
  rcases run.exec progress with ⟨ending | a, mid⟩
  . simp
  . simp

def KeepsDisk (run : Run α) : Prop :=
  ∀ progress, (run.exec progress).2.disk = progress.disk

theorem KeepsDisk.bind {run : Run α} {next : α → Run β} (h : run.KeepsDisk)
    (hnext : ∀ a, (next a).KeepsDisk) : (run >>= next).KeepsDisk := by
  intro progress
  have hrun := h progress
  rw [exec_bind]
  rcases heq : run.exec progress with ⟨ending | a, progress'⟩
  . rw [heq] at hrun
    exact hrun
  . rw [heq] at hrun
    exact (hnext a progress').trans hrun

theorem keepsDisk_pure (a : α) : (pure a : Run α).KeepsDisk :=
  fun _ => rfl

theorem keepsDisk_throw (ending : Ending) : (throw ending : Run α).KeepsDisk :=
  fun _ => rfl

theorem keepsDisk_printLines (lines : List Line) : (printLines lines).KeepsDisk :=
  fun _ => rfl

theorem keepsDisk_expect (result : Except Failure α) : (expect result).KeepsDisk := by
  cases result with
  | ok a => exact keepsDisk_pure a
  | error failure => exact keepsDisk_throw _

theorem keepsDisk_attempt (result : Except Failure α) : (attempt result).KeepsDisk := by
  cases result with
  | ok a => exact keepsDisk_pure a
  | error failure => exact keepsDisk_throw _

theorem keepsDisk_print (pieces : List Text) : (print pieces).KeepsDisk :=
  (keepsDisk_expect _).bind keepsDisk_printLines

theorem keepsDisk_echo (t : Text) : (echo t).KeepsDisk :=
  (keepsDisk_expect _).bind keepsDisk_printLines

theorem keepsDisk_forM {f : α → Run Unit} (h : ∀ a, (f a).KeepsDisk) (as : List α) :
    (as.forM f).KeepsDisk := by
  induction as with
  | nil => exact keepsDisk_pure ()
  | cons a rest ih => exact (h a).bind fun _ => ih

theorem keepsDisk_filterM {f : α → Run Bool} (h : ∀ a, (f a).KeepsDisk) (as : List α) :
    (as.filterM f).KeepsDisk := by
  have haux (kept : List α) : (as.filterAuxM f kept).KeepsDisk := by
    induction as generalizing kept with
    | nil => exact keepsDisk_pure _
    | cons a rest ih => exact (h a).bind fun _ => ih _
  exact (haux []).bind fun _ => keepsDisk_pure _

section Filter

variable {f : α → Run Bool} {as kept result : List α} {progress progress' : Progress}

theorem length_le_of_exec_filterAuxM
    (h : (as.filterAuxM f kept).exec progress = (.ok result, progress')) :
    kept.length ≤ result.length := by
  induction as generalizing kept progress with
  | nil =>
    cases h
    simp
  | cons a rest ih =>
    rw [List.filterAuxM, exec_bind_eq_ok_iff] at h
    obtain ⟨b, mid, -, hrest⟩ := h
    have hle := ih hrest
    cases b with
    | true => exact Nat.le_of_succ_le hle
    | false => exact hle

theorem exists_of_exec_filterAuxM
    (h : (as.filterAuxM f kept).exec progress = (.ok result, progress'))
    (hlength : result.length = kept.length) :
    ∀ a ∈ as, ∃ before after, (f a).exec before = (.ok false, after) := by
  induction as generalizing kept progress with
  | nil => exact fun a hmem => absurd hmem List.not_mem_nil
  | cons a rest ih =>
    rw [List.filterAuxM, exec_bind_eq_ok_iff] at h
    obtain ⟨b, mid, hanswer, hrest⟩ := h
    cases b with
    | true =>
      have hle := length_le_of_exec_filterAuxM hrest
      simp only [cond_true, List.length_cons] at hle
      omega
    | false =>
      intro other hmem
      rcases List.mem_cons.mp hmem with rfl | hmem
      . exact ⟨progress, mid, hanswer⟩
      . exact ih hrest hlength other hmem

end Filter

end Run

theorem keepsDisk_load [FileFormat] (context : Context) : (load context).KeepsDisk :=
  Run.KeepsDisk.bind (fun _ => rfl) fun _ => Run.keepsDisk_attempt _

theorem keepsDisk_checkProperty [Limits] (w : Workspace) (p : Property) :
    (checkProperty w p).KeepsDisk := by
  refine (Run.keepsDisk_expect _).bind fun problems => ?_
  refine (Run.keepsDisk_forM ?_ problems).bind fun _ => Run.keepsDisk_pure _
  exact fun problem => Run.keepsDisk_print _

theorem exec_checkProperty_of_nil [Limits] {w : Workspace} {p : Property}
    (h : w.problems p = .ok [])
    (progress : Progress) : (checkProperty w p).exec progress = (.ok false, progress) := by
  have hexec : (checkProperty w p).exec progress = (Run.expect (w.problems p) >>= fun problems =>
    problems.forM (fun problem => Run.print [
      "[red]✗[/red] ", p.instanceId, ".", p.name, " (", p.id, "): ", Markup.escape problem]) >>=
        fun _ => pure (!problems.isEmpty)).exec progress := rfl
  rw [hexec, h]
  rfl

theorem problems_of_exec_checkProperty [Limits] {w : Workspace} {p : Property}
    {progress progress' : Progress}
    (h : (checkProperty w p).exec progress = (.ok false, progress')) : w.problems p = .ok [] := by
  rw [checkProperty, Run.exec_bind_eq_ok_iff] at h
  obtain ⟨problems, mid, hproblems, h⟩ := h
  rw [Run.exec_bind_eq_ok_iff] at h
  obtain ⟨_, _, -, hanswer⟩ := h
  cases problems with
  | nil =>
    cases heq : w.problems p with
    | error failure =>
      rw [heq] at hproblems
      cases hproblems
    | ok found =>
      rw [heq] at hproblems
      cases hproblems
      rfl
  | cons problem rest => cases hanswer

theorem exec_filterAuxM_of_nil [Limits] {w : Workspace} {props : List Property}
    (h : ∀ p ∈ props, w.problems p = .ok []) (kept : List Property) (progress : Progress) :
    (props.filterAuxM (checkProperty w) kept).exec progress = (.ok kept, progress) := by
  induction props generalizing kept with
  | nil => rfl
  | cons p rest ih =>
    rw [List.filterAuxM, Run.exec_bind_eq_ok_iff]
    exact ⟨false, progress, exec_checkProperty_of_nil (h p List.mem_cons_self) progress,
      ih (fun other hmem => h other (List.mem_cons_of_mem _ hmem)) kept⟩

theorem exec_filterM_checkProperty_iff [Limits] {w : Workspace} {progress : Progress} :
    (∃ progress', (w.service.store.collections.propertyList.filterM (checkProperty w)).exec
      progress = (.ok [], progress')) ↔ w.Passes := by
  simp only [List.filterM, Run.exec_bind_eq_ok_iff]
  constructor
  . rintro ⟨progress', kept, mid, hkept, hreverse⟩ p hp
    rw [Run.exec_pure, Prod.mk.injEq, Except.ok.injEq, List.reverse_eq_nil_iff] at hreverse
    obtain ⟨rfl, -⟩ := hreverse
    obtain ⟨before, after, hanswer⟩ := Run.exists_of_exec_filterAuxM hkept rfl p hp
    exact problems_of_exec_checkProperty hanswer
  . intro h
    exact ⟨progress, [], progress, exec_filterAuxM_of_nil h [] progress, rfl⟩

theorem keepsDisk_runCheck [Limits] [FileFormat] (context : Context) :
    (runCheck context).KeepsDisk := by
  refine (keepsDisk_load context).bind fun w => ?_
  refine (Run.keepsDisk_filterM (keepsDisk_checkProperty w) _).bind fun failed => ?_
  split
  . exact Run.keepsDisk_print _
  . exact (Run.keepsDisk_print _).bind fun _ => Run.keepsDisk_throw _

theorem keepsDisk_runScope [FileFormat] (context : Context) (instanceId : Text) :
    (runScope context instanceId).KeepsDisk := by
  refine (keepsDisk_load context).bind fun w => ?_
  refine (Run.keepsDisk_attempt _).bind fun selector => ?_
  refine (Run.keepsDisk_expect _).bind fun vars => ?_
  split
  . exact Run.keepsDisk_print _
  . refine (Run.keepsDisk_expect _).bind fun previews => ?_
    exact (Run.keepsDisk_expect _).bind fun lines => Run.keepsDisk_printLines lines

theorem keepsDisk_runUsage [Limits] [FileFormat] (context : Context) :
    (runUsage context).KeepsDisk := by
  refine (keepsDisk_load context).bind fun w => ?_
  dsimp only
  split
  . exact Run.keepsDisk_print _
  . refine (Run.keepsDisk_expect _).bind fun answers => ?_
    exact (Run.keepsDisk_expect _).bind fun lines => Run.keepsDisk_printLines lines

theorem keepsDisk_runEval [Limits] (text : Text) : (runEval text).KeepsDisk := by
  refine (Run.keepsDisk_attempt _).bind fun value => ?_
  exact (Run.keepsDisk_expect _).bind Run.keepsDisk_echo

theorem exec_load_of_ok [FileFormat] {context : Context} {progress : Progress} {w : Workspace}
    (h : Workspace.load progress.disk context.supplies context.working context.file = .ok w) :
    (load context).exec progress = (.ok w, progress) := by
  have hexec : (load context).exec progress = (Run.attempt (Workspace.load progress.disk
    context.supplies context.working context.file)).exec progress := rfl
  rw [hexec, h]
  rfl

def Ending.ofFailure (failure : Failure) : Ending :=
  if failure.isReported then .reported failure else .escaped failure

theorem Ending.exitStatus_ofFailure (failure : Failure) :
    (ofFailure failure).exitStatus = failure.exitStatus := by
  unfold ofFailure
  split
  . rfl
  . next hreported =>
    cases failure with
    | projectFile path fault => exact absurd rfl hreported
    | _ => rfl

theorem exec_load_of_error [FileFormat] {context : Context} {progress : Progress}
    {failure : Failure}
    (h : Workspace.load progress.disk context.supplies context.working context.file =
      .error failure) :
    (load context).exec progress = (.error (.ofFailure failure), progress) := by
  have hexec : (load context).exec progress = (Run.attempt (Workspace.load progress.disk
    context.supplies context.working context.file)).exec progress := rfl
  rw [hexec, h]
  rfl

end Command

end PageBinding
