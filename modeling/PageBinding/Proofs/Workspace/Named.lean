import PageBinding.Proofs.Command.Run
import PageBinding.Proofs.Edit.Accepted
import PageBinding.Proofs.Edit.Failing
import PageBinding.Proofs.Expression.Refusal
import PageBinding.Proofs.Project.Ancestors
import PageBinding.Proofs.Project.Inherited
import PageBinding.Proofs.Project.Saved

/-!
This module contains that the variables of a project which has been loaded can be named, unless one
of them has an empty id. Where those that an instance sees have none, neither the check of its props
nor the setting of an expression fails for want of an identifier.
-/

namespace PageBinding

open Traversal

namespace Edit

variable {s : Store} {collectionComponent : Text} {selector : Option Selector}
  {propertyId : Option Text}

inductive RefusesExpression (text : Text) : Failure → Prop where
  | property {failure : Failure} : RefusesProperty failure → RefusesExpression text failure
  | starting (kind : Text) : RefusesExpression text (.notIterable kind)
  | text {failure : Failure} : Expression.Refuses text failure → RefusesExpression text failure
  | unknown (name : Text) : RefusesExpression text (.unknownIdentifier name)

theorem failsOnly_parts (v : Value) :
    Traversal.FailsOnly (fun failure => ∃ kind, failure = .notIterable kind)
      (PropertyMeta.parts v) := by
  unfold PropertyMeta.parts
  split
  . exact .ok _
  . exact .ok _
  . exact .ok _
  all_goals exact .error ⟨_, rfl⟩

theorem failsOnly_startingValue (m : PropertyMeta) :
    Traversal.FailsOnly (fun failure => ∃ kind, failure = .notIterable kind) m.startingValue := by
  unfold PropertyMeta.startingValue
  generalize (fun v : Value => if m.default = .null then v else m.default) = defaultOr
  dsimp only
  split
  . exact .ok _
  split
  . exact .ok _
  split
  . exact .ok _
  split
  . exact (failsOnly_parts _).bind fun _ _ => .ok _
  split
  . exact .ok _
  . exact .ok _

theorem failsOnly_removeExpression [Limits] (name text : Text) (declared : Option PropertyMeta) :
    FailsOnly (RefusesExpression text) (removeExpression selector propertyId name declared) := by
  have hreset (starting : Option PropertyValue) :
      FailsOnly (RefusesExpression text) (reset selector propertyId name starting) :=
    (failsOnly_reset selector propertyId name starting).mono fun _ => .property
  cases declared with
  | none => exact hreset none
  | some declared =>
    refine FailsOnly.bind (.ofExcept ((failsOnly_startingValue declared).mono ?_)) hreset
    rintro _ ⟨kind, rfl⟩
    exact .starting kind

theorem failsOnly_run_setExpression [Limits] {seen : List Variable} {aliases : Collection Text}
    (hseen : visible s collectionComponent selector = .ok seen)
    (haliases : Scope.aliases seen = .ok aliases) (name text : Text)
    (declared : Option PropertyMeta) :
    Traversal.FailsOnly (RefusesExpression text)
      ((setExpression collectionComponent selector propertyId name text declared).run s).1 := by
  cases hblank : text.isBlank with
  | true =>
    unfold setExpression
    rw [if_pos hblank]
    exact failsOnly_removeExpression name text declared s
  | false =>
    have hcode : FailsOnly (RefusesExpression text)
        (ofExcept (Expression.checkNames .expression aliases.contains text)) := by
      refine .ofExcept ((Expression.failsOnly_checkNames _ _ text).mono ?_)
      rintro _ (hrefuses | ⟨unknown, rfl⟩)
      . exact .text hrefuses
      . exact .unknown unknown
    rw [run_setExpression hblank hseen haliases]
    refine (hcode.bind fun code => ?_) s
    exact ((failsOnly_setProperty _ _ _ _).mono fun _ => .property).bind fun p => .pure (some p)

end Edit

theorem Project.failsOnly_selector (p : Project) (id : Text) :
    FailsOnly (fun failure => failure.isReported = true) (p.selector id) := by
  intro failure h
  by_cases hid : id ∈ p.instances.map Instance.id
  . rcases selector_cases hid with ⟨path, hpath⟩ | ⟨other, hother, -⟩
    . rw [hpath] at h
      cases h
    . rw [hother] at h
      cases h
      rfl
  . rw [selector_eq_error hid] at h
    cases h
    rfl

namespace Workspace

variable {w : Workspace}

def Names (w : Workspace) (instanceId : Text) : Prop :=
  ∀ selector vars, w.project.selector instanceId = .ok selector →
    w.service.visible (some selector) = .ok vars → ∀ v ∈ vars, v.id ≠ []

section Load

variable [FileFormat] {disk : Disk} {supplies : IdSupplies} {working : Location}
  {given : Option Text}

theorem conflict?_of_load (h : load disk supplies working given = .ok w) :
    w.project.conflict? = none := by
  unfold load at h
  obtain ⟨⟨path, location⟩, -, h⟩ := bind_eq_ok_iff.mp h
  obtain ⟨⟨p, ids⟩, hproject, h⟩ := bind_eq_ok_iff.mp h
  obtain ⟨settings, -, h⟩ := bind_eq_ok_iff.mp h
  cases h
  exact Project.conflict?_of_load hproject

theorem collections_of_load (h : load disk supplies working given = .ok w) :
    w.service.store.collections = w.project.toCollections := by
  obtain ⟨supplies', heq⟩ := eq_ofProject_of_load h
  rw [heq]
  rfl

theorem propertyList_of_load (h : load disk supplies working given = .ok w) :
    w.service.store.collections.propertyList = w.project.props := by
  rw [collections_of_load h]
  exact (Project.lists_toCollections (conflict?_of_load h)).2

theorem visible_of_load (h : load disk supplies working given = .ok w) (selector : Selector) :
    w.service.visible (some selector) = .ok (Scope.visible w.project.tree
      w.service.settings.collectionComponent (some selector) w.project.vars) := by
  obtain ⟨supplies', heq⟩ := eq_ofProject_of_load h
  have hcollections := collections_of_load h
  have hfiled : w.service.store.collections.Filed := hcollections ▸ w.project.filed_toCollections
  have hinstances : w.service.store.instances = w.project.tree := by
    rw [heq]
    rfl
  have hvars : w.service.store.collections.variableList = w.project.vars := by
    rw [hcollections]
    exact (Project.lists_toCollections (conflict?_of_load h)).1
  rw [Service.visible, Edit.visible_eq hfiled, hinstances, hvars]

theorem names_of_load (h : load disk supplies working given = .ok w)
    (hids : ∀ v ∈ w.project.vars, v.id ≠ []) (instanceId : Text) : w.Names instanceId := by
  intro selector vars _ hvisible v hv
  rw [visible_of_load h] at hvisible
  cases hvisible
  exact hids v (Scope.mem_of_mem_visible hv)

theorem exists_names_of_load (h : load disk supplies working given = .ok w)
    (selector : Selector) :
    ∃ vars, w.service.visible (some selector) = .ok vars ∧
      (∀ v, v ∈ vars ↔ v ∈ w.project.vars ∧
        Scope.IsShown w.project.tree w.service.settings.collectionComponent selector v) ∧
      (Scope.aliases vars = .error .emptyId ↔ ∃ v ∈ vars, v.id = []) ∧
      ((∀ v ∈ vars, v.id ≠ []) →
        ∃ aliases, Scope.aliases vars = .ok aliases ∧ Scope.Names vars aliases) := by
  obtain ⟨⟨-, hdistinct, -⟩, -⟩ := Project.conflict?_eq_none_iff.mp (conflict?_of_load h)
  refine ⟨_, visible_of_load h selector, fun v => Scope.mem_visible_iff,
    Scope.aliases_eq_error_iff, Scope.exists_names ?_⟩
  rw [Scope.visible_eq_filter]
  exact hdistinct.sublist (List.filter_sublist.map Variable.id)

end Load

variable [Limits]

theorem failsOnly_problemOf (aliases : Collection Text) (source : Source) :
    FailsOnly (· ≠ .emptyId) (problemOf aliases source) := by
  unfold problemOf
  dsimp only
  split
  . exact .ok none
  . next failure hfailure =>
    have hrefuses := Expression.failsOnly_checkNames _ _ _ failure hfailure
    split
    . exact .ok _
    . exact .ok _
    . refine .error ?_
      rintro rfl
      rcases hrefuses with hrefuses | ⟨name, heq⟩
      . cases hrefuses
      . cases heq

theorem failsOnly_problems (filed : w.service.store.collections.Filed) {p : Property}
    (h : (∀ type value, p.value ≠ .literal type value) → w.Names p.instanceId) :
    FailsOnly (· ≠ .emptyId) (w.problems p) := by
  unfold problems
  split
  . exact .ok []
  . next hliteral =>
    split
    . exact .ok _
    . next selector hselector =>
      have hvisible := Edit.visible_eq filed w.service.settings.collectionComponent selector
      have haliases := Scope.aliases_eq (h hliteral selector _ hselector hvisible)
      rw [Service.visible, hvisible]
      refine FailsOnly.bind (.ok _) fun _ hvars => ?_
      cases hvars
      rw [haliases]
      refine FailsOnly.bind (.ok _) fun aliases _ => ?_
      exact FailsOnly.bind (.mapM fun source _ => failsOnly_problemOf aliases source)
        fun _ _ => .ok _

theorem failsOnly_setExpression (filed : w.service.store.collections.Filed)
    {instanceId : Text}
    (h : w.Names instanceId) (name text : Text) (declared : Option PropertyMeta) :
    FailsOnly (· ≠ .emptyId) (w.setExpression instanceId name text declared).1 := by
  unfold setExpression
  split
  . next failure hselector =>
    refine .error ?_
    rintro rfl
    cases w.project.failsOnly_selector instanceId _ hselector
  . next selector hselector =>
    have hvisible := Edit.visible_eq filed w.service.settings.collectionComponent selector
    have haliases := Scope.aliases_eq (h selector _ hselector hvisible)
    refine (Edit.failsOnly_run_setExpression hvisible haliases name text declared).mono ?_
    rintro _ hrefuses rfl
    cases hrefuses with
    | property hproperty => cases hproperty with | transaction hends => cases hends
    | text htext => cases htext

end Workspace

end PageBinding
