import PageBinding.Proofs.Command.Run
import PageBinding.Proofs.Console
import PageBinding.Proofs.Disk

/-!
This module contains how command lines end and what is on the disk by then. One that fails has
changed nothing, unless it has edited a project and recorded that in the log, and then could not
write the project file, or has written it and could not print what it has done.
-/

namespace PageBinding

namespace Workspace

variable {w : Workspace} {service : Service} {command : Command}

theorem fresh_of_load [FileFormat] {disk : Disk} {supplies : IdSupplies} {working : Location}
    {given : Option Text} (h : load disk supplies working given = .ok w) :
    w.service.store.collections.Filed ∧ w.service.store.listeners = [] ∧
      w.service.store.published = [] := by
  obtain ⟨supplies', heq⟩ := eq_ofProject_of_load h
  rw [heq]
  exact ⟨w.project.filed_toCollections, rfl, rfl⟩

theorem exists_shown_of_setValue [Limits] (hfiled : w.service.store.collections.Filed)
    {instanceId name text : Text} {variableId : Option Text} {saved : Variable}
    (h : w.setValue instanceId name text variableId = (.ok saved, service)) :
    ∃ shown, saved.literal?.mapM Expression.format = .ok shown := by
  rcases setValue_cases (w := w) instanceId name text variableId with
    ⟨failure, heq⟩ | ⟨v, selector, hgiven, -, heq⟩
  . rw [heq] at h
    cases h
  rw [heq] at h
  have hsaves := Edit.ensures_save_evaluated (s := w.service.store) (some selector) v name text
  unfold Edit.Ensures at hsaves
  unfold Service.save Service.run at h
  rcases hrun : (Edit.save (some selector) v name text).run w.service.store with ⟨result, store⟩
  rw [hrun] at h hsaves
  cases h
  obtain ⟨write, hsavesAs, -⟩ := hsaves
  unfold Edit.SavesAs at hsavesAs
  split at hsavesAs
  . next parameter hparameter =>
    -- A parameter is only renamed, and has no value to show.
    obtain ⟨hv, hisParameter⟩ := Option.filter_eq_some_iff.mp hparameter
    have hstored := mem_of_mapM_requireVariable hgiven parameter hv
    obtain ⟨existing, hget, rfl⟩ := hsavesAs.stored
    rw [hfiled.get?_vars_of_mem (Collections.mem_variableList_iff.mp hstored)] at hget
    cases hget
    have hnone : Variable.literal? { parameter with name } = none := by
      unfold Variable.literal?
      split
      . next hcontent =>
        have hvalue : parameter.content = _ := hcontent
        simp [Variable.isParameter, hvalue, Content.isParameter] at hisParameter
      . rfl
    exact ⟨none, by rw [hnone]; rfl⟩
  . obtain ⟨-, ⟨value, hvalue, hcontent⟩, -⟩ := hsavesAs
    obtain ⟨shown, hshown⟩ := Expression.exists_format_of_evaluate hvalue
    have hsome : saved.literal? = some value := by
      simp [Variable.literal?, hcontent]
    exact ⟨some shown, by rw [hsome, Option.mapM_some, hshown]; rfl⟩

theorem length_published_le_one [Limits] {op : Operation} {result : Operation.Result}
    (h : op.perform w.service = (.ok result, service)) (hlisteners : w.service.store.listeners = [])
    (hpublished : w.service.store.published = []) : service.store.published.length ≤ 1 := by
  have hstore := (Operation.performed op w.service).store
  rw [h] at hstore
  obtain ⟨write, -, hedited⟩ := hstore
  have honce := (hedited.ledger (by simp [hlisteners])).once
  have hnone : w.service.store.ledger.published = [] := hpublished
  rcases honce with heq | ⟨t, hleads⟩
  . have hsame : service.store.published = [] := by
      rw [← hnone, ← heq]
      rfl
    simp [hsame]
  . have hone : service.store.published = [t] := by
      have hpublished := hleads.published
      rwa [hnone, List.nil_append] at hpublished
    simp [hone]

/--
A command has made one operation on the project of a workspace, and of the files other than the
project file only the log has changed: it has got one line at most.
-/
structure Recorded [Limits] (w : Workspace) (command : Command) (op : Operation)
    (result : Operation.Result)
    (service : Service) (disk disk' : Disk) : Prop where
  asks : w.Asks command op
  performed : op.perform w.service = (.ok result, service)
  log : ∀ location ≠ w.location, w.logLocation? disk = some location →
    ∃ lines : List Text, lines.length ≤ 1 ∧ (∀ line ∈ lines, line.IsLine) ∧
      disk.Gains disk' location lines
  others : ∀ location ≠ w.location, w.logLocation? disk ≠ some location →
    disk'.document? location = disk.document? location

/--
The project file holds the project after the operation.
-/
structure Saved [Limits] (w : Workspace) (command : Command) (op : Operation)
    (result : Operation.Result)
    (service : Service) (disk disk' : Disk) : Prop
    extends w.Recorded command op result service disk disk' where
  project : disk'.document? w.location = some (.data { w with service }.file)

/--
The project after the operation cannot be written, and the project file is as it was, unless it is
the log as well.
-/
structure Refused [Limits] [FileFormat] (w : Workspace) (command : Command) (op : Operation)
    (result : Operation.Result) (service : Service) (fault : Unwritable) (disk disk' : Disk) : Prop
    extends w.Recorded command op result service disk disk' where
  refusal : FileFormat.refusal? { w with service }.file = some fault
  project : w.logLocation? disk ≠ some w.location →
    disk'.document? w.location = disk.document? w.location

section Record

variable {disk disk' : Disk} {op : Operation} {result : Operation.Result}

theorem logLocation?_of_perform [Limits] (hperform : op.perform w.service = (.ok result, service))
    (disk : Disk) : logLocation? { w with service } disk = w.logLocation? disk := by
  have hsettings : service.settings = w.service.settings := by
    have hperformed := (Operation.performed op w.service).settings
    rwa [hperform] at hperformed
  simp only [logLocation?, hsettings]

theorem document?_record_of_ne {location : Location} (h : w.logLocation? disk ≠ some location) :
    (w.record disk).document? location = disk.document? location := by
  unfold record
  split
  . next log heq =>
    dsimp only
    split
    . rfl
    . apply Disk.document?_append_of_ne
      rintro rfl
      exact h heq
  . rfl

theorem recorded_record [Limits] (hasks : w.Asks command op)
    (hperform : op.perform w.service = (.ok result, service)) (disk : Disk)
    (hlisteners : w.service.store.listeners = []) (hpublished : w.service.store.published = []) :
    w.Recorded command op result service disk (record { w with service } disk) := by
  have hlocation := logLocation?_of_perform hperform disk
  refine ⟨hasks, hperform, ?_, ?_⟩
  . intro location _ hlog
    have hlength := length_published_le_one hperform hlisteners hpublished
    refine ⟨service.store.published.filterMap Transaction.record?,
      (List.length_filterMap_le _ _).trans hlength, ?_, ?_⟩
    . intro line hline
      obtain ⟨t, -, hrecord⟩ := List.mem_filterMap.mp hline
      exact t.isLine_record? hrecord
    . simp only [record, hlocation, hlog]
      split
      . exact .inl rfl
      . exact Disk.gains_append disk location _
  . intro location _ hlog
    exact document?_record_of_ne (hlocation ▸ hlog)

theorem Recorded.write [Limits] (h : w.Recorded command op result service disk disk') :
    w.Saved command op result service disk
      (disk'.write w.location (.data { w with service }.file)) := by
  refine ⟨⟨h.asks, h.performed, ?_, ?_⟩, Disk.document?_write _ _ _⟩
  . intro location hne hlog
    unfold Disk.Gains
    rw [Disk.document?_write_of_ne hne]
    exact h.log location hne hlog
  . intro location hne hlog
    rw [Disk.document?_write_of_ne hne]
    exact h.others location hne hlog

end Record

end Workspace

namespace Command

/--
A part of a command that only prints, and fails only if something cannot be printed.
-/
def Run.Says (unprintable : Prop) (run : Run Unit) : Prop :=
  ∀ progress, (run.exec progress).2.disk = progress.disk ∧
    ∀ ending, (run.exec progress).1 = .error ending → unprintable

namespace Run

variable {unprintable : Prop}

theorem says_print {shown pieces : List Text}
    (hpieces : ∀ piece ∈ pieces, piece ∈ shown ∨ ∃ s : String, piece = s)
    (h : (∀ t ∈ shown, Markup.IsPlain t) → Markup.Prints [] (Text.concat pieces)) :
    (print pieces).Says (∃ t ∈ shown, ¬ (Markup.IsPlain t ∧ t.IsEncodable)) := by
  refine fun progress => ⟨keepsDisk_print pieces progress, fun ending hending => ?_⟩
  by_contra hunprintable
  have hprintable : ∀ t ∈ shown, Markup.IsPlain t ∧ t.IsEncodable := by
    intro t ht
    by_contra hnot
    exact hunprintable ⟨t, ht, hnot⟩
  have hencodable : (Text.concat pieces).IsEncodable := by
    refine Text.isEncodable_concat fun piece hpiece => ?_
    rcases hpieces piece hpiece with hshown | ⟨s, rfl⟩
    . exact (hprintable piece hshown).2
    . exact Text.isEncodable_ofString s
  obtain ⟨lines, hlines⟩ :=
    Console.exists_styled hencodable (h fun t ht => (hprintable t ht).1)
  have hprint : print pieces = printLines lines := by
    unfold print
    rw [hlines]
    rfl
  rw [hprint] at hending
  cases hending

theorem says_echo (t : Text) : (echo t).Says (¬ t.IsEncodable) := by
  refine fun progress => ⟨keepsDisk_echo t progress, fun ending hending hencodable => ?_⟩
  obtain ⟨lines, hlines⟩ := Console.exists_plain hencodable
  have hecho : echo t = printLines lines := by
    unfold echo
    rw [hlines]
    rfl
  rw [hecho] at hending
  cases hending

theorem Says.mono {unprintable' : Prop} {run : Run Unit} (h : run.Says unprintable)
    (himp : unprintable → unprintable') : run.Says unprintable' :=
  fun progress => ⟨(h progress).1, fun ending hending => himp ((h progress).2 ending hending)⟩

theorem Says.bind {run next : Run Unit} (h : run.Says unprintable) (hnext : next.Says unprintable) :
    (run >>= fun _ => next).Says unprintable := by
  intro progress
  obtain ⟨hdisk, hending⟩ := h progress
  rw [exec_bind]
  rcases heq : run.exec progress with ⟨ending | _, progress'⟩
  . rw [heq] at hdisk hending
    exact ⟨hdisk, hending⟩
  . rw [heq] at hdisk
    exact ⟨(hnext progress').1.trans hdisk, (hnext progress').2⟩

end Run

def edits : Command → Bool
  | .setValue .. | .delete _ | .bind .. | .expr .. => true
  | .check | .scope _ | .usage | .eval _ => false

def shown (command : Command) (op : Operation) (result : Operation.Result) : List Text :=
  match command, op, result with
  | .setValue .., _, .saved v => [v.id, v.name]
  | .delete variableId, _, _ => [variableId]
  | .bind instanceId name _, .bind _ _ _ v, .property (some p) => [instanceId, name, v.name, p.id]
  | .expr instanceId name _ _, _, _ => [instanceId, name]
  | _, _, _ => []

def echoed (command : Command) (result : Operation.Result) : List Text :=
  match command, result with
  | .setValue .., .saved v =>
    (v.literal?.bind fun value => (Expression.format value).toOption).toList
  | _, _ => []

/--
What a command prints when it has made an operation cannot be printed: a bracket opens in an id or
in a name, or there is a surrogate somewhere.
-/
def Unprintable (command : Command) (op : Operation) (result : Operation.Result) : Prop :=
  (∃ t ∈ command.shown op result, ¬ (Markup.IsPlain t ∧ t.IsEncodable)) ∨
    ∃ t ∈ command.echoed result, ¬ t.IsEncodable

section Message

open Markup

theorem prints_saved (v : Variable) (h : ∀ t ∈ [v.id, v.name], IsPlain t) :
    Prints [] (Text.concat ["[green]✓[/green] Saved [cyan]", v.id, "[/cyan] ", v.name]) := by
  simp only [List.forall_mem_cons] at h
  obtain ⟨hid, hname, -⟩ := h
  have hstart : Text.ofString "[green]✓[/green] Saved [cyan]" =
      tick ++ (Text.ofString " Saved" ++ .ofChar ' ' :: openingTag "cyan") := rfl
  have hending : Text.ofString "[/cyan] " = closingTag "cyan" ++ Text.ofString " " := rfl
  have hrest : IsPlain (Text.ofString " " ++ v.name) := isPlain_append (by decide) hname
  simp only [Text.concat, hstart, hending, List.flatten_cons, List.flatten_nil, List.append_nil,
    List.append_assoc, List.cons_append]
  refine .ticked (.append (by decide) rfl rfl ?_)
  exact .coloured cyan_mem_hues hid (.plain hrest) (.plain hrest)

theorem prints_deleted (variableId : Text) (h : ∀ t ∈ [variableId], IsPlain t) :
    Prints [] (Text.concat ["[green]✓[/green] Deleted [cyan]", variableId, "[/cyan]"]) := by
  have hstart : Text.ofString "[green]✓[/green] Deleted [cyan]" =
      tick ++ (Text.ofString " Deleted" ++ .ofChar ' ' :: openingTag "cyan") := rfl
  have hending : Text.ofString "[/cyan]" = closingTag "cyan" := rfl
  simp only [Text.concat, hstart, hending, List.flatten_cons, List.flatten_nil, List.append_assoc,
    List.cons_append]
  refine .ticked (.append (by decide) rfl rfl ?_)
  exact .coloured cyan_mem_hues (h variableId List.mem_cons_self) .nil .nil

theorem prints_bound (instanceId name : Text) (v : Variable) (p : Property)
    (h : ∀ t ∈ [instanceId, name, v.name, p.id], IsPlain t) :
    Prints [] (Text.concat ["[green]✓[/green] Bound ", instanceId, ".", name, " to ", v.name,
      " ([cyan]", p.id, "[/cyan])"]) := by
  simp only [List.forall_mem_cons] at h
  obtain ⟨hinstance, hname, hv, hp, -⟩ := h
  have hstart : Text.ofString "[green]✓[/green] Bound " = tick ++ Text.ofString " Bound " :=
    rfl
  have hopening : Text.ofString " ([cyan]" =
      Text.ofString " " ++ .ofChar '(' :: openingTag "cyan" := rfl
  have hending : Text.ofString "[/cyan])" = closingTag "cyan" ++ Text.ofString ")" := rfl
  have hrest : IsPlain (Text.ofString ")") := by decide
  have hclosed : Prints [] (Text.ofString ")") := .plain hrest
  have hbefore : IsPlain (Text.concat [" Bound ", instanceId, ".", name, " to ", v.name, " "]) := by
    apply isPlain_concat
    simp only [List.forall_mem_cons]
    exact ⟨by decide, hinstance, by decide, hname, by decide, hv, by decide,
      List.forall_mem_nil _⟩
  have hmessage := Prints.ticked (.append (c := .ofChar '(') hbefore rfl rfl
    (.coloured cyan_mem_hues hp (.plain hrest) hclosed))
  simpa only [Text.concat, hstart, hopening, hending, List.flatten_cons, List.flatten_nil,
    List.append_nil, List.append_assoc, List.cons_append] using hmessage

theorem prints_changed {start : Text} {pieces : List Text} (verb : Text)
    (hstart : start = tick ++ verb) (h : ∀ t ∈ verb :: pieces, IsPlain t) :
    Prints [] (Text.concat (start :: pieces)) := by
  have happend : Text.concat (start :: pieces) = tick ++ Text.concat (verb :: pieces) := by
    simp [Text.concat, hstart]
  rw [happend]
  exact .ticked (.plain (isPlain_concat h))

theorem isPlain_kindName (value : PropertyValue) : IsPlain value.kindName := by
  have hkinds : IsPlain "literal" ∧ IsPlain "expression" ∧ IsPlain "action" := by decide
  cases value with
  | literal type value => exact hkinds.1
  | expression text => exact hkinds.2.1
  | action steps => exact hkinds.2.2

theorem exists_kindName_eq (value : PropertyValue) : ∃ s : String, value.kindName = s := by
  cases value <;> exact ⟨_, rfl⟩

end Message

variable {context : Context} {progress : Progress}

theorem exec_attempt_error {α : Type} (failure : Failure) (progress : Progress) :
    (Run.attempt (.error failure : Except Failure α)).exec progress =
      (.error (.ofFailure failure), progress) :=
  rfl

theorem exitStatus_ofFailure_ne_zero (failure : Failure) :
    (Ending.ofFailure failure).exitStatus ≠ 0 := by
  rw [Ending.exitStatus_ofFailure]
  cases failure <;> simp [Failure.exitStatus]

theorem says_message {command : Command} {op : Operation} {result : Operation.Result}
    {pieces : List Text}
    (hpieces : ∀ piece ∈ pieces, piece ∈ command.shown op result ∨ ∃ s : String, piece = s)
    (h : (∀ t ∈ command.shown op result, Markup.IsPlain t) →
      Markup.Prints [] (Text.concat pieces)) :
    (Run.print pieces).Says (command.Unprintable op result) :=
  (Run.says_print hpieces h).mono .inl

theorem says_saved {instanceId name text : Text} {variableId : Option Text} {op : Operation}
    (saved : Variable) {value : Option Text}
    (hvalue : saved.literal?.mapM Expression.format = .ok value) :
    (do
      Run.print ["[green]✓[/green] Saved [cyan]", saved.id, "[/cyan] ", saved.name]
      value.forM Run.echo : Run Unit).Says
        (Command.Unprintable (.setValue instanceId name text variableId) op (.saved saved)) := by
  have hmessage : (Run.print ["[green]✓[/green] Saved [cyan]", saved.id, "[/cyan] ",
      saved.name]).Says
        (Command.Unprintable (.setValue instanceId name text variableId) op (.saved saved)) :=
    says_message (by simp [shown]) (prints_saved saved)
  refine hmessage.bind ?_
  cases value with
  | none => exact fun _ => ⟨rfl, nofun⟩
  | some shown =>
    refine (Run.says_echo shown).mono fun hnot => .inr ⟨shown, ?_, hnot⟩
    cases hliteral : saved.literal? with
    | none =>
      rw [hliteral] at hvalue
      cases hvalue
    | some v =>
      rw [hliteral, Option.mapM_some] at hvalue
      obtain ⟨t, hformat, hsome⟩ := Traversal.map_eq_ok_iff.mp hvalue
      cases hsome
      simp [echoed, hliteral, hformat, Except.toOption]

section Keep

variable [FileFormat]

theorem exec_keep (w : Workspace) (progress : Progress) :
    (keep w).exec progress =
      match FileFormat.refusal? w.file with
      | some fault =>
        (.error (.ofFailure fault.failure), { progress with disk := w.record progress.disk })
      | none =>
        (.ok (),
          { progress with disk := (w.record progress.disk).write w.location (.data w.file) }) := by
  have hkeep : (keep w).exec progress =
      (Run.attempt (w.save (w.record progress.disk)) >>= fun disk =>
        (modify fun progress => { progress with disk } : Run Unit)).exec
          { progress with disk := w.record progress.disk } := rfl
  rw [hkeep, Run.exec_bind, Workspace.save]
  cases FileFormat.refusal? w.file with
  | some fault => rfl
  | none => rfl

variable [Limits]

/--
A run that edits the project fails and leaves the disk alone, or it makes one operation and records
that. Then it saves the project and only prints, unless the project cannot be written.
-/
def Ends (context : Context) (command : Command) (progress : Progress) (run : Run Unit) :
    Prop :=
  (∃ ending, run.exec progress = (.error ending, progress) ∧ ending.exitStatus ≠ 0) ∨
    ∃ w op result service,
      Workspace.load progress.disk context.supplies context.working context.file = .ok w ∧
      w.Asks command op ∧ op.perform w.service = (.ok result, service) ∧
      let after : Workspace := { w with service }
      let disk := after.record progress.disk
      (∃ fault, FileFormat.refusal? after.file = some fault ∧
        run.exec progress = (.error (.ofFailure fault.failure), { progress with disk })) ∨
      ∃ say, Run.Says (command.Unprintable op result) say ∧
        run.exec progress =
          say.exec { progress with disk := disk.write w.location (.data after.file) }

theorem ends_edit_bind {α : Type} {command : Command}
    {operation : Workspace → Except Failure α × Service} {next : α → Run Unit}
    (h : ∀ w a service, w.service.store.collections.Filed → operation w = (.ok a, service) →
      ∃ op result, w.Asks command op ∧ op.perform w.service = (.ok result, service) ∧
        (next a).Says (command.Unprintable op result)) :
    Ends context command progress (edit context operation >>= next) := by
  unfold Ends edit
  simp only [bind_assoc]
  rw [Run.exec_bind]
  rcases heq : Workspace.load progress.disk context.supplies context.working context.file with
    failure | w
  . rw [exec_load_of_error heq]
    exact .inl ⟨_, rfl, exitStatus_ofFailure_ne_zero failure⟩
  rw [exec_load_of_ok heq]
  rcases hoperation : operation w with ⟨failure | a, service⟩
  . refine .inl ⟨.ofFailure failure, ?_, exitStatus_ofFailure_ne_zero failure⟩
    simp only [hoperation]
    rw [Run.exec_bind, exec_attempt_error]
  . obtain ⟨op, result, hasks, hperform, hsays⟩ :=
      h w a service (Workspace.fresh_of_load heq).1 hoperation
    refine .inr ⟨w, op, result, service, rfl, hasks, hperform, ?_⟩
    have hkeep : ((Run.attempt (.ok a : Except Failure α) >>= fun a =>
        keep { w with service } >>= fun _ => pure a >>= next).exec progress) =
          (keep { w with service } >>= fun _ => next a).exec progress := rfl
    simp only [hoperation]
    rw [hkeep, Run.exec_bind, exec_keep]
    cases hrefusal : FileFormat.refusal? ({ w with service } : Workspace).file with
    | some fault => exact .inl ⟨fault, rfl, rfl⟩
    | none => exact .inr ⟨next a, hsays, rfl⟩

theorem ends_run {command : Command} (hedits : command.edits = true) :
    Ends context command progress (run context command) := by
  cases command with
  | check => cases hedits
  | scope instanceId => cases hedits
  | usage => cases hedits
  | eval text => cases hedits
  | setValue instanceId name text variableId =>
    refine ends_edit_bind fun w saved service hfiled hoperation => ?_
    obtain ⟨op, hasks, hperform⟩ := Workspace.asks_setValue hoperation
    refine ⟨op, _, hasks, hperform, ?_⟩
    obtain ⟨shown, hshown⟩ := Workspace.exists_shown_of_setValue hfiled hoperation
    simp only [hshown, Run.expect, pure_bind]
    exact says_saved saved hshown
  | delete variableId =>
    refine ends_edit_bind fun w _ service _ hoperation => ?_
    obtain ⟨op, hasks, hperform⟩ := Workspace.asks_delete hoperation
    refine ⟨op, _, hasks, hperform, says_message (by simp [shown]) ?_⟩
    exact prints_deleted variableId
  | bind instanceId name variableId =>
    refine ends_edit_bind fun w bound service _ hoperation => ?_
    obtain ⟨selector, propertyId, hasks, hperform⟩ := Workspace.asks_bind hoperation
    refine ⟨_, _, hasks, hperform, says_message (by simp [shown]) ?_⟩
    exact prints_bound instanceId name _ _
  | expr instanceId name text type =>
    refine ends_edit_bind fun w p service _ hoperation => ?_
    obtain ⟨op, hasks, hperform⟩ := Workspace.asks_setExpression hoperation
    refine ⟨op, _, hasks, hperform, ?_⟩
    split
    . refine says_message (by simp [shown]) fun hshown => prints_changed " Removed " rfl ?_
      simp only [shown, List.forall_mem_cons] at hshown ⊢
      exact ⟨by decide, hshown.1, by decide, hshown.2⟩
    . split
      . refine says_message (by simp [shown]) fun hshown => prints_changed " Set " rfl ?_
        simp only [shown, List.forall_mem_cons] at hshown ⊢
        exact ⟨by decide, hshown.1, by decide, hshown.2⟩
      . refine says_message (by simp [shown, exists_kindName_eq]) fun hshown =>
          prints_changed " Reset " rfl ?_
        simp only [shown, List.forall_mem_cons] at hshown ⊢
        exact ⟨by decide, hshown.1, by decide, hshown.2.1, by decide, isPlain_kindName _,
          List.forall_mem_nil _⟩

theorem keepsDisk_run {command : Command} (hedits : command.edits = false) :
    (run context command).KeepsDisk := by
  cases command with
  | check => exact keepsDisk_runCheck context
  | scope instanceId => exact keepsDisk_runScope context instanceId
  | usage => exact keepsDisk_runUsage context
  | eval text => exact keepsDisk_runEval text
  | setValue instanceId name text variableId => cases hedits
  | delete variableId => cases hedits
  | bind instanceId name variableId => cases hedits
  | expr instanceId name text type => cases hedits

/--
Where a run that edits the project has not failed before, it has made its operation. Either the
project could not be written, or it has been saved and the run fails only if it cannot print what it
has done.
-/
theorem Ends.recorded {command : Command} {run : Run Unit}
    (h : Ends context command progress run) :
    (∃ ending, run.exec progress = (.error ending, progress) ∧ ending.exitStatus ≠ 0) ∨
      ∃ w op result service,
        Workspace.load progress.disk context.supplies context.working context.file = .ok w ∧
        ((∃ fault,
            w.Refused command op result service fault progress.disk (run.exec progress).2.disk ∧
            (run.exec progress).1 = .error (.ofFailure fault.failure)) ∨
          w.Saved command op result service progress.disk (run.exec progress).2.disk ∧
            ∀ ending, (run.exec progress).1 = .error ending → command.Unprintable op result) := by
  rcases h with hfails | ⟨w, op, result, service, hload, hasks, hperform, hkept⟩
  . exact .inl hfails
  obtain ⟨-, hlisteners, hpublished⟩ := Workspace.fresh_of_load hload
  have hrecorded := Workspace.recorded_record hasks hperform progress.disk hlisteners hpublished
  refine .inr ⟨w, op, result, service, hload, ?_⟩
  rcases hkept with ⟨fault, hrefusal, hexec⟩ | ⟨say, hsays, hexec⟩
  . rw [hexec]
    refine .inl ⟨fault, ⟨hrecorded, hrefusal, fun hlog => ?_⟩, rfl⟩
    exact Workspace.document?_record_of_ne
      ((Workspace.logLocation?_of_perform hperform progress.disk).symm ▸ hlog)
  . obtain ⟨hdisk, hending⟩ := hsays { progress with
      disk := (({ w with service } : Workspace).record progress.disk).write w.location
        (.data ({ w with service } : Workspace).file) }
    rw [hexec, hdisk]
    exact .inr ⟨hrecorded.write, hending⟩

section Execute

variable (disk : Disk) (working : Location) (supplies : IdSupplies) {args : List Text}
  {command : Command} {file : Option Text}

theorem exec_runRequest (h : request? args = some (.run command file))
    (progress : Progress) :
    (runRequest working supplies (request? args)).run.run progress =
      (run ⟨working, supplies, file⟩ command).exec progress := by
  rw [h]
  rfl

theorem execute_run (h : request? args = some (.run command file)) :
    let report := execute disk working supplies args
    let outcome := (run ⟨working, supplies, file⟩ command).exec ⟨[], disk⟩
    report.disk = outcome.2.disk ∧
      (outcome.1 = .ok () ∧ report.ending = .done ∨ outcome.1 = .error report.ending) := by
  intro report outcome
  simp only [report, outcome, execute, exec_runRequest working supplies h]
  split
  . next heq =>
    rw [heq]
    exact ⟨rfl, .inl ⟨rfl, rfl⟩⟩
  . next heq =>
    rw [heq]
    exact ⟨rfl, .inr rfl⟩

/--
A command line that edits a project has changed nothing on the disk and fails, or it has made its
one operation. Then it fails where the project cannot be written; else it has saved the project and
fails only if it cannot print what it has done.
-/
theorem execute_edits (h : request? args = some (.run command file))
    (hedits : command.edits = true) :
    let report := execute disk working supplies args
    report.ending.exitStatus ≠ 0 ∧ report.disk = disk ∨
      ∃ w op result service, Workspace.load disk supplies working file = .ok w ∧
        ((∃ fault, w.Refused command op result service fault disk report.disk ∧
            report.ending = .ofFailure fault.failure) ∨
          w.Saved command op result service disk report.disk ∧
            (report.ending.exitStatus ≠ 0 → command.Unprintable op result)) := by
  obtain ⟨hdisk, hending⟩ := execute_run disk working supplies h
  have hends : Ends ⟨working, supplies, file⟩ command ⟨[], disk⟩
      (run ⟨working, supplies, file⟩ command) := ends_run hedits
  rcases hends.recorded with ⟨ending, hexec, hstatus⟩ | ⟨w, op, result, service, hload, hkept⟩
  . rw [hexec] at hdisk hending
    rcases hending with ⟨hok, -⟩ | herror
    . cases hok
    . rw [Except.error.inj herror] at hstatus
      exact .inl ⟨hstatus, hdisk⟩
  refine .inr ⟨w, op, result, service, hload, ?_⟩
  rw [hdisk]
  rcases hkept with ⟨fault, hrefused, hfails⟩ | ⟨hsaved, hfails⟩
  . rcases hending with ⟨hok, -⟩ | herror
    . rw [hfails] at hok
      cases hok
    . exact .inl ⟨fault, hrefused, Except.error.inj (herror.symm.trans hfails)⟩
  . refine .inr ⟨hsaved, fun hstatus => ?_⟩
    rcases hending with ⟨-, hdone⟩ | herror
    . rw [hdone] at hstatus
      exact absurd rfl hstatus
    . exact hfails _ herror

theorem disk_execute_of_not_edits
    (h : ∀ command file, request? args = some (.run command file) → command.edits = false) :
    (execute disk working supplies args).disk = disk := by
  cases hrequest : request? args with
  | none =>
    unfold execute
    rw [hrequest]
    rfl
  | some request =>
    cases request with
    | version =>
      unfold execute
      rw [hrequest]
      rfl
    | help =>
      unfold execute
      rw [hrequest]
      rfl
    | run command file =>
      rw [(execute_run disk working supplies hrequest).1]
      exact keepsDisk_run (h command file hrequest) _

/--
A command line that ends with another status than zero has changed nothing on the disk, unless it
has made its one operation, and then could not write the project, or has saved it and could not
print what it has done. One that edits a project and ends with status zero has saved the project
after its one operation.
-/
theorem execute_saved (args : List Text) :
    let report := execute disk working supplies args
    (report.ending.exitStatus ≠ 0 → report.disk = disk ∨
      ∃ command file w op result service, request? args = some (.run command file) ∧
        Workspace.load disk supplies working file = .ok w ∧
        ((∃ fault, w.Refused command op result service fault disk report.disk ∧
            report.ending = .ofFailure fault.failure) ∨
          w.Saved command op result service disk report.disk ∧ command.Unprintable op result)) ∧
    (report.ending.exitStatus = 0 → ∀ command file, request? args = some (.run command file) →
      command.edits = true → ∃ w op result service,
        Workspace.load disk supplies working file = .ok w ∧
        w.Saved command op result service disk report.disk) := by
  constructor
  . intro hstatus
    by_cases hother : ∀ command file, request? args = some (.run command file) →
        command.edits = false
    . exact .inl (disk_execute_of_not_edits disk working supplies hother)
    simp only [Classical.not_forall, Bool.not_eq_false] at hother
    obtain ⟨command, file, hrequest, hedits⟩ := hother
    rcases execute_edits disk working supplies hrequest hedits with
      ⟨-, hdisk⟩ | ⟨w, op, result, service, hload, hkept⟩
    . exact .inl hdisk
    . refine .inr ⟨command, file, w, op, result, service, hrequest, hload, ?_⟩
      exact hkept.imp_right fun h => ⟨h.1, h.2 hstatus⟩
  . intro hstatus command file hrequest hedits
    rcases execute_edits disk working supplies hrequest hedits with
      ⟨hfails, -⟩ | ⟨w, op, result, service, hload, ⟨fault, -, hending⟩ | ⟨hsaved, -⟩⟩
    . exact absurd hstatus hfails
    . rw [hending] at hstatus
      exact absurd hstatus (exitStatus_ofFailure_ne_zero fault.failure)
    . exact ⟨w, op, result, service, hload, hsaved⟩

end Execute

end Keep

/--
A disk with a project whose only variable has an id that closes a tag.
-/
def bracketedDisk : Disk where
  root := "/site"
  made := []
  files := [(["varbind.project.yaml"], .data (.object [
    ("instances", .list [.object [("id", .text "body"), ("component", .text "Body")]]),
    ("variables", .list [.object [
      ("kind", .text "value"), ("id", .text "[/b]"), ("name", .text "Size"),
      ("scope_instance_id", .text "body"),
      ("value", .object [("type", .text "number"), ("value", .number (.int 1))])]])]))]

/--
The variable is deleted, although the command that deletes it fails.
-/
theorem not_forall_execute_keepsDisk :
    ¬ ∀ (disk : Disk) (working : Location) (supplies : IdSupplies) (args : List Text)
      (command : Command) (file : Option Text), request? args = some (.run command file) →
      command.edits = true → (execute disk working supplies args).ending.exitStatus ≠ 0 →
        (execute disk working supplies args).disk = disk := by
  intro h
  have hdeletes : request? ["delete", "[/b]"] = some (.run (.delete "[/b]") none) := rfl
  have hfails :
      (execute bracketedDisk [] ⟨⟨"v", 0⟩, ⟨"t", 0⟩⟩ ["delete", "[/b]"]).ending.exitStatus ≠ 0 ∧
      (execute bracketedDisk [] ⟨⟨"v", 0⟩, ⟨"t", 0⟩⟩ ["delete", "[/b]"]).disk.files ≠
        bracketedDisk.files := by
    decide +kernel
  exact hfails.2 (congrArg Disk.files (h _ _ _ _ _ _ hdeletes rfl hfails.1))

end Command

end PageBinding
