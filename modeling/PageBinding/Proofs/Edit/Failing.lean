import PageBinding.Proofs.Edit.Spec

/-!
This module contains how the failures of an operation on a store follow from those of its parts.
-/

namespace PageBinding

inductive Failure.EndsTransaction : Failure → Prop where
  | nested : EndsTransaction .nestedTransaction
  | aborted (cause : Failure) : EndsTransaction (.aborted cause)

namespace Edit

/--
An operation fails only in ways that are allowed, whatever store it runs on.
-/
def FailsOnly {α : Type} (allowed : Failure → Prop) (edit : Edit α) : Prop :=
  ∀ s : Store, Traversal.FailsOnly allowed (edit.run s).1

namespace FailsOnly

variable {α β : Type} {allowed : Failure → Prop}

theorem pure (a : α) : FailsOnly allowed (pure a) :=
  fun _ => .ok a

theorem throw {failure : Failure} (h : allowed failure) :
    FailsOnly allowed (throw failure : Edit α) :=
  fun _ => .error h

theorem ofExcept {result : Except Failure α} (h : Traversal.FailsOnly allowed result) :
    FailsOnly allowed (ofExcept result) :=
  fun _ => h

theorem get : FailsOnly allowed (getThe Store) :=
  fun s => .ok s

theorem takeId : FailsOnly allowed takeId :=
  fun s => .ok s.takeId.1

theorem bind {edit : Edit β} {next : β → Edit α} (h : FailsOnly allowed edit)
    (hnext : ∀ b, FailsOnly allowed (next b)) : FailsOnly allowed (edit >>= next) := by
  intro s
  have hs := h s
  rw [run_bind]
  split
  . next failure _ heq =>
    rw [heq] at hs
    exact .error (hs failure rfl)
  . next b s' _ => exact hnext b s'

theorem mono {allowed' : Failure → Prop} {edit : Edit α} (h : FailsOnly allowed edit)
    (himp : ∀ failure, allowed failure → allowed' failure) : FailsOnly allowed' edit :=
  fun s => (h s).mono himp

end FailsOnly

theorem failsOnly_commit [Limits] {α : Type} (names : List CollectionName)
    (written : α → List (CollectionName × Text))
    (change : Collections → IdSupply → Except Failure (α × Collections × IdSupply)) :
    FailsOnly Failure.EndsTransaction (commit names written change) := by
  intro s
  rw [run_commit]
  cases idle : s.inTransaction with
  | true =>
    simp only [Store.edit, Store.transact, Store.transactWith, Store.begin_text, idle, if_true]
    exact .error .nested
  | false =>
    rw [Store.edit_eq_of_idle idle]
    split
    . next cause _ => exact .error (.aborted cause)
    . exact .ok _

theorem failsOnly_requireInstance (selector : Option Selector) :
    Traversal.FailsOnly (· = .noInstance) (requireInstance selector) := by
  unfold requireInstance
  split
  . exact .error rfl
  . exact .error rfl
  . exact .ok _

/--
A failure to write a prop: there is no instance for it, or the transaction fails.
-/
inductive RefusesProperty : Failure → Prop where
  | noInstance : RefusesProperty .noInstance
  | transaction {failure : Failure} : failure.EndsTransaction → RefusesProperty failure

theorem failsOnly_setProperty [Limits] (selector : Option Selector) (propertyId : Option Text)
    (name : Text)
    (value : PropertyValue) :
    FailsOnly RefusesProperty (setProperty selector propertyId name value) := by
  have hinstance : FailsOnly RefusesProperty (ofExcept (requireInstance selector)) :=
    .ofExcept ((failsOnly_requireInstance selector).mono fun failure heq => heq ▸ .noInstance)
  exact hinstance.bind fun _ => (failsOnly_commit _ _ _).mono fun _ => .transaction

theorem failsOnly_reset [Limits] (selector : Option Selector) (propertyId : Option Text)
    (name : Text)
    (starting : Option PropertyValue) :
    FailsOnly RefusesProperty (reset selector propertyId name starting) := by
  unfold reset
  split
  . next value =>
    exact (failsOnly_setProperty selector propertyId name value).bind fun p => .pure (some p)
  . exact ((failsOnly_commit _ _ _).mono fun _ => .transaction).bind fun _ => .pure none
  . exact .pure none

end Edit

end PageBinding
