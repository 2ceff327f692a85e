import PageBinding.Proofs.Edit.Filed
import PageBinding.Proofs.Scope
import PageBinding.Workspace.Check

/-!
This module contains what it means that nothing is wrong with a prop: its instance has a path, its
texts can be read, and each identifier in them is that of a variable in scope or the name of an
argument.
-/

namespace PageBinding

/--
Everything is filed where it belongs, and no variable has an empty id.
-/
structure Collections.Usable (c : Collections) : Prop where
  filed : c.Filed
  named : ∀ v ∈ c.variableList, v.id ≠ []

theorem mapM_toVariable {entities : List Entity}
    (h : ∀ entity ∈ entities, ∃ v, entity = .variable_ v) :
    entities.mapM Entity.toVariable = .ok (entities.filterMap Entity.asVariable?) := by
  induction entities with
  | nil => rfl
  | cons entity rest ih =>
    obtain ⟨v, rfl⟩ := h entity List.mem_cons_self
    rw [Traversal.mapM_cons_eq_ok_iff]
    exact ⟨v, rest.filterMap Entity.asVariable?, rfl,
      ih fun other hmem => h other (List.mem_cons_of_mem _ hmem), rfl⟩

theorem Edit.visible_eq {s : Store} (h : s.collections.Filed) (collectionComponent : Text)
    (selector : Selector) :
    Edit.visible s collectionComponent (some selector) =
      .ok (Scope.visible s.instances collectionComponent (some selector)
        s.collections.variableList) := by
  unfold Edit.visible
  cases selector with
  | nil => rfl
  | cons instanceId ancestors =>
    have hvars : ∀ entity ∈ s.collections.vars.values, ∃ v, entity = .variable_ v := by
      intro entity hmem
      obtain ⟨key, hget⟩ := Collection.mem_values_iff.mp hmem
      obtain ⟨v, hv, -⟩ := h .vars key entity hget
      exact ⟨v, hv⟩
    simp only [Option.getD_some, List.isEmpty_cons, Bool.false_eq_true, if_false]
    rw [mapM_toVariable hvars]
    rfl

variable [Limits]

namespace Workspace

def Sees (project : Project) (settings : Settings) (selector : Selector) (c : Collections)
    (name : Text) : Prop :=
  ∃ v ∈ c.variableList, Scope.IsShown project.tree settings.collectionComponent selector v ∧
    Reference.encode v.id = name

/--
A text can be read, and its identifiers are seen or may be used besides.
-/
def Source.Fits (project : Project) (settings : Settings) (selector : Selector)
    (c : Collections)
    (source : Source) : Prop :=
  ∃ ids, Expression.identifiers? source.mode false source.text = .ok (some ids) ∧
    ∀ id ∈ ids, Sees project settings selector c id.name ∨ id.name ∈ source.locals

def Fits (project : Project) (settings : Settings) (c : Collections) (p : Property) :
    Prop :=
  (∃ type literal, p.value = .literal type literal) ∨
    ∃ selector, project.selector p.instanceId = .ok selector ∧
      ∀ source ∈ sources settings.effects p, source.Fits project settings selector c

theorem problemOf_eq_none_iff {aliases : Collection Text} {source : Source} :
    problemOf aliases source = .ok none ↔
      ∃ ids, Expression.identifiers? source.mode false source.text = .ok (some ids) ∧
        ∀ id ∈ ids, aliases.contains id.name = true ∨ id.name ∈ source.locals := by
  have hknown (name : Text) : (aliases.contains name || decide (name ∈ source.locals)) = true ↔
      aliases.contains name = true ∨ name ∈ source.locals := by simp
  simp only [← hknown, problemOf]
  constructor
  . intro h
    split at h
    . next code hcode => exact (Expression.checkNames_eq_ok_iff.mp hcode).2
    . split at h <;> cases h
  . intro h
    have hcode : Expression.checkNames source.mode
        (fun name => aliases.contains name || decide (name ∈ source.locals)) source.text =
          .ok source.text := Expression.checkNames_eq_ok_iff.mpr ⟨rfl, h⟩
    simp only [hcode]

theorem mapM_problemOf_iff {aliases : Collection Text} {texts : List Source} :
    (texts.mapM (problemOf aliases)).map (List.filterMap id) = .ok [] ↔
      ∀ source ∈ texts, problemOf aliases source = .ok none := by
  rw [Traversal.map_eq_ok_iff]
  constructor
  . rintro ⟨found, hfound, hnil⟩ source hsource
    obtain ⟨problem, hmem, hproblem⟩ := Traversal.exists_of_mem_of_mapM hfound hsource
    rw [List.filterMap_eq_nil_iff] at hnil
    have hnone : problem = none := hnil problem hmem
    rw [hproblem, hnone]
  . intro h
    refine ⟨_, Traversal.mapM_eq_ok h, ?_⟩
    simp

theorem problems_of_not_literal {w : Workspace} {p : Property} {selector : Selector}
    {seen : List Variable} {aliases : Collection Text}
    (hliteral : ∀ type literal, p.value ≠ .literal type literal)
    (hselector : w.project.selector p.instanceId = .ok selector)
    (hseen : w.service.visible (some selector) = .ok seen)
    (haliases : Scope.aliases seen = .ok aliases) :
    w.problems p = ((sources w.service.settings.effects p).mapM (problemOf aliases)).map
      (List.filterMap id) := by
  unfold problems
  cases hvalue : p.value with
  | literal type literal => exact absurd hvalue (hliteral type literal)
  | expression t =>
    simp only [hselector, hseen, bind, Except.bind, haliases]
    cases (sources w.service.settings.effects p).mapM (problemOf aliases) <;> rfl
  | action steps =>
    simp only [hselector, hseen, bind, Except.bind, haliases]
    cases (sources w.service.settings.effects p).mapM (problemOf aliases) <;> rfl

theorem problems_eq_nil_iff_of_shown {w : Workspace}
    (filed : w.service.store.collections.Filed)
    (hinstances : w.service.store.instances = w.project.tree) (p : Property)
    (named : ∀ selector, w.project.selector p.instanceId = .ok selector →
      ∀ v ∈ w.service.store.collections.variableList,
        Scope.IsShown w.project.tree w.service.settings.collectionComponent selector v →
          v.id ≠ []) :
    w.problems p = .ok [] ↔
      Fits w.project w.service.settings w.service.store.collections p := by
  by_cases hliteral : ∃ type literal, p.value = .literal type literal
  . obtain ⟨type, literal, hvalue⟩ := hliteral
    simp [problems, Fits, hvalue]
  . have hnot : ∀ type literal, p.value ≠ .literal type literal :=
      fun type literal hvalue => hliteral ⟨type, literal, hvalue⟩
    cases hselector : w.project.selector p.instanceId with
    | error failure =>
      have hproblems : w.problems p = .ok [failure.message] := by
        unfold problems
        cases hvalue : p.value with
        | literal type literal => exact absurd hvalue (hnot type literal)
        | expression t => simp only [hselector]
        | action steps => simp only [hselector]
      simp [hproblems, Fits, hliteral, hselector]
    | ok selector =>
      have hseen := Edit.visible_eq filed w.service.settings.collectionComponent selector
      rw [hinstances] at hseen
      have hnamed : ∀ v ∈ Scope.visible w.project.tree w.service.settings.collectionComponent
          (some selector) w.service.store.collections.variableList, v.id ≠ [] := by
        intro v hv
        obtain ⟨hmem, hshown⟩ := Scope.mem_visible_iff.mp hv
        exact named selector hselector v hmem hshown
      obtain ⟨aliases, haliases, hcontains⟩ := Scope.aliases_eq_ok hnamed
      rw [problems_of_not_literal hnot hselector hseen haliases, mapM_problemOf_iff]
      simp only [Fits, hliteral, hselector, false_or, Except.ok.injEq, exists_eq_left',
        problemOf_eq_none_iff, hcontains, Source.Fits, Sees, Scope.mem_visible_iff, and_assoc]

theorem problems_eq_nil_iff {w : Workspace} (h : w.service.store.collections.Usable)
    (hinstances : w.service.store.instances = w.project.tree) (p : Property) :
    w.problems p = .ok [] ↔
      Fits w.project w.service.settings w.service.store.collections p :=
  problems_eq_nil_iff_of_shown h.filed hinstances p fun _ _ v hv _ => h.named v hv

end Workspace

end PageBinding
