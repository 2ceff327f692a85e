import PageBinding.Proofs.Edit.Failing
import PageBinding.Proofs.Expression.Evaluation

/-!
This module contains that the saving of a variable fails for want of a name only where the name is
empty.
-/

namespace PageBinding

namespace Edit

variable {α : Type}

/--
An operation never fails for want of a name.
-/
def Named (edit : Edit α) : Prop :=
  ∀ s : Store, (edit.run s).1 ≠ .error .nameRequired

theorem FailsOnly.named {edit : Edit α} (h : FailsOnly (· ≠ .nameRequired) edit) : Named edit :=
  fun s heq => h s _ heq rfl

theorem failsOnly_commit_named [Limits] (names : List CollectionName)
    (written : α → List (CollectionName × Text))
    (change : Collections → IdSupply → Except Failure (α × Collections × IdSupply)) :
    FailsOnly (· ≠ .nameRequired) (commit names written change) := by
  refine (failsOnly_commit names written change).mono ?_
  rintro _ hends rfl
  cases hends

theorem failsOnly_requireName {name : Text} (h : name ≠ []) :
    FailsOnly (· ≠ .nameRequired) (ofExcept (requireName name)) := by
  unfold requireName
  rw [if_neg (mt List.isEmpty_iff.mp h)]
  exact .ofExcept (.ok ())

theorem failsOnly_rename [Limits] (v : Variable) {name : Text} (h : name ≠ []) :
    FailsOnly (· ≠ .nameRequired) (rename v name) := by
  unfold rename
  apply (failsOnly_requireName h).bind
  intro _
  refine FailsOnly.bind .get fun s => ?_
  split
  . exact .throw nofun
  . exact failsOnly_commit_named _ _ _

theorem failsOnly_requireInstance_named (selector : Option Selector) :
    FailsOnly (· ≠ .nameRequired) (ofExcept (requireInstance selector)) := by
  refine .ofExcept ((failsOnly_requireInstance selector).mono ?_)
  rintro _ rfl
  exact nofun

theorem failsOnly_targetId (v : Option Variable) (instanceId : Text) :
    FailsOnly (· ≠ .nameRequired) (targetId v instanceId) := by
  have hcheck (id : Text) : FailsOnly (· ≠ .nameRequired) (do
      ofExcept (checkScope (← getThe Store) id instanceId)
      return id) := by
    refine FailsOnly.bind .get fun s => ?_
    refine FailsOnly.bind (.ofExcept ?_) fun _ => .pure id
    unfold checkScope
    split
    . exact .ok ()
    . split
      . exact .error nofun
      . exact .ok ()
  unfold targetId
  cases v with
  | some v => exact (FailsOnly.pure v.id).bind hcheck
  | none => exact FailsOnly.takeId.bind hcheck

theorem failsOnly_evaluate [Limits] (t : Text) :
    FailsOnly (· ≠ .nameRequired) (ofExcept (Expression.evaluate t)) := by
  apply FailsOnly.ofExcept
  rintro _ heq rfl
  rcases Expression.failsOnly_evaluate t _ heq with
    hrefuses | hdeclared | ⟨e, -, hdeclared | ⟨part, -, -, hoverreaches⟩⟩
  . cases hrefuses
  . cases hdeclared
  . cases hdeclared
  . generalize hfailure : Failure.nameRequired = failure at hoverreaches
    cases hoverreaches with
    | test _ _ h => cases h with | int _ => cases hfailure
    | operands _ _ h => cases h with | @numbers _ _ fault _ _ _ => cases fault <;> cases hfailure
    | key _ _ h => cases h <;> cases hfailure

theorem named_save [Limits] (selector : Option Selector) (v : Option Variable) {name : Text}
    (h : name ≠ [])
    (text : Text) : Named (save selector v name text) := by
  apply FailsOnly.named
  unfold save
  apply (failsOnly_requireName h).bind
  intro _
  split
  . next parameter _ => exact failsOnly_rename parameter h
  . apply (failsOnly_evaluate text).bind
    intro value
    apply (failsOnly_requireInstance_named selector).bind
    intro instanceId
    apply (failsOnly_targetId v instanceId).bind
    exact fun id => failsOnly_commit_named _ _ _

theorem named_saveResource [Limits] (selector : Option Selector) (v : Option Variable) {name : Text}
    (h : name ≠ []) (resource : Resource) : Named (saveResource selector v name resource) := by
  apply FailsOnly.named
  unfold saveResource
  apply (failsOnly_requireName h).bind
  intro _
  split
  . next parameter _ => exact failsOnly_rename parameter h
  . apply (failsOnly_requireInstance_named selector).bind
    intro instanceId
    apply (failsOnly_targetId v instanceId).bind
    exact fun id => failsOnly_commit_named _ _ _

theorem run_requireName_bind_nil (next : Unit → Edit α) (s : Store) :
    (ofExcept (requireName []) >>= next).run s = (.error .nameRequired, s) :=
  rfl

end Edit

end PageBinding
