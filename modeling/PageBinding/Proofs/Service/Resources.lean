import Mathlib.Data.List.Induction
import PageBinding.Proofs.Edit.Written
import PageBinding.Proofs.Service.Footprint

/-!
This module contains what becomes of the resources of variables. A variable can be left with a
resource that is not stored, but only by an operation on another variable that has had the same one.
-/

namespace PageBinding

def Collections.ResourcesStored (c : Collections) : Prop :=
  ∀ variableId resourceId, c.resourceOf? variableId = some resourceId →
    c.resources.contains resourceId = true

theorem Collections.resourceOf?_eq_some_iff {c : Collections} {variableId resourceId : Text} :
    c.resourceOf? variableId = some resourceId ↔
      ∃ v, c.vars.get? variableId = some (.variable_ v) ∧ v.content = .resource resourceId := by
  unfold resourceOf? findVariable?
  cases c.vars.get? variableId with
  | none => simp
  | some entity =>
    cases entity with
    | variable_ v =>
      simp only [Option.bind_some, Entity.asVariable?, Option.map_some, Option.some.injEq,
        Entity.variable_.injEq, exists_eq_left']
      cases v.content <;> simp
    | resource r => simp [Entity.asVariable?]
    | property p => simp [Entity.asVariable?]
    | raw value => simp [Entity.asVariable?]

theorem Collections.resourcesStored_iff {c : Collections} :
    c.ResourcesStored ↔ ∀ v ∈ c.variableList, ∀ resourceId, v.content = .resource resourceId →
      c.resources.contains resourceId = true := by
  simp only [ResourcesStored, resourceOf?_eq_some_iff, mem_variableList_iff,
    Collection.mem_values_iff]
  constructor
  . rintro h v ⟨variableId, hget⟩ resourceId hcontent
    exact h variableId resourceId ⟨v, hget, hcontent⟩
  . rintro h variableId resourceId ⟨v, hget, hcontent⟩
    exact h v ⟨variableId, hget⟩ resourceId hcontent

theorem Stays.isSome_eq {before after : Option Entity} (h : Stays before after) :
    after.isSome = before.isSome := by
  cases before <;> cases after <;> first | rfl | exact h.elim

theorem Stays.resource {before after : Option Entity} (h : Stays before after) {v : Variable}
    (hbefore : before = some (.variable_ v)) {resourceId : Text}
    (hcontent : v.content = .resource resourceId) :
    ∃ u, after = some (.variable_ u) ∧ u.content = .resource resourceId := by
  subst hbefore
  cases after with
  | none => exact h.elim
  | some entity =>
    rcases h with hagrees | rfl
    . cases entity with
      | variable_ u =>
        simp only [Entity.agrees, Variable.agrees, hcontent, Bool.and_eq_true] at hagrees
        refine ⟨u, rfl, ?_⟩
        cases hu : u.content <;> simp_all [Content.agrees]
      | resource r => simp [Entity.agrees] at hagrees
      | property p => simp [Entity.agrees] at hagrees
      | raw value => simp [Entity.agrees] at hagrees
    . exact ⟨v, rfl, hcontent⟩

namespace Edit.Write

/--
A write that saves a variable gives it a resource if and only if it puts that resource, and one that
renames a variable leaves it the resource that it has.
-/
def Supplies (c : Collections) : Edit.Write → Prop
  | rename id v => ∃ existing, c.vars.get? id = some (.variable_ existing) ∧
      v.content = existing.content
  | save v resource => ∀ resourceId, v.content = .resource resourceId →
      resource.map Resource.id = some resourceId
  | _ => True

variable {c : Collections} {w : Edit.Write} {variableId resourceId : Text}

theorem resources_apply_save (c : Collections) (v : Variable) (resource : Option Resource) :
    ((save v resource).apply c).resources =
      match resource with
      | none => (dropResource c v.id none).resources
      | some resource =>
        (dropResource c v.id (some resource.id)).resources.insert resource.id
          (.resource resource) := by
  cases resource <;> rfl

theorem contains_dropResource {kept : Option Text}
    (hstored : c.resources.contains resourceId = true)
    (h : kept = some resourceId ∨ c.resourceOf? variableId ≠ some resourceId) :
    (dropResource c variableId kept).resources.contains resourceId = true := by
  unfold Collections.resourceOf? at h
  unfold dropResource
  split
  . next dropped heq =>
    rw [heq] at h
    split
    . exact hstored
    . next hkept =>
      have hne : resourceId ≠ dropped := by
        rintro rfl
        simp [hkept] at h
      rw [Collection.contains, Collection.get?_erase, if_neg hne]
      exact hstored
  . exact hstored

theorem contains_resources_apply (hstored : c.resources.contains resourceId = true) :
    (w.apply c).resources.contains resourceId = true ∨
      ∃ v resource, w = save v resource ∧ c.resourceOf? v.id = some resourceId ∧
        resource.map Resource.id ≠ some resourceId := by
  cases w with
  | save v resource =>
    by_cases hdrops : c.resourceOf? v.id = some resourceId ∧
        resource.map Resource.id ≠ some resourceId
    . exact .inr ⟨v, resource, rfl, hdrops⟩
    . left
      have hkept : resource.map Resource.id = some resourceId ∨
          c.resourceOf? v.id ≠ some resourceId := by
        simp only [not_and_or, not_not] at hdrops
        exact hdrops.symm
      rw [resources_apply_save]
      cases resource with
      | none => exact contains_dropResource hstored hkept
      | some resource =>
        rw [Option.map_some] at hkept
        rw [Collection.contains_insert, contains_dropResource hstored hkept, Bool.or_true]
  | nothing => exact .inl hstored
  | rename id v => exact .inl hstored
  | erase id => exact .inl hstored
  | setProperty p => exact .inl hstored
  | eraseProperty id => exact .inl hstored

theorem resourceOf?_apply (hw : w.Supplies c)
    (h : (w.apply c).resourceOf? variableId = some resourceId) :
    (w.apply c).resources.contains resourceId = true ∨
      c.resourceOf? variableId = some resourceId ∧
        ∀ v resource, w = save v resource → v.id ≠ variableId := by
  rw [Collections.resourceOf?_eq_some_iff] at h ⊢
  obtain ⟨u, hget, hcontent⟩ := h
  cases w with
  | save v resource =>
    rw [vars_apply_save, Collection.get?_insert] at hget
    split at hget
    . cases hget
      left
      obtain ⟨resource, rfl, rfl⟩ := Option.map_eq_some_iff.mp (hw resourceId hcontent)
      rw [resources_apply_save, Collection.contains_insert]
      simp
    . next hne =>
      refine .inr ⟨⟨u, hget, hcontent⟩, ?_⟩
      rintro _ _ ⟨⟩ heq
      exact hne heq.symm
  | rename id v =>
    rw [apply, Collection.get?_insert] at hget
    refine .inr ⟨?_, by rintro _ _ ⟨⟩⟩
    split at hget
    . next heq =>
      cases hget
      obtain ⟨existing, hexisting, hsame⟩ := hw
      exact ⟨existing, heq ▸ hexisting, hsame ▸ hcontent⟩
    . exact ⟨u, hget, hcontent⟩
  | erase id =>
    rw [apply, Collection.get?_erase] at hget
    split at hget
    . cases hget
    . exact .inr ⟨⟨u, hget, hcontent⟩, by rintro _ _ ⟨⟩⟩
  | nothing => exact .inr ⟨⟨u, hget, hcontent⟩, by rintro _ _ ⟨⟩⟩
  | setProperty p => exact .inr ⟨⟨u, hget, hcontent⟩, by rintro _ _ ⟨⟩⟩
  | eraseProperty id => exact .inr ⟨⟨u, hget, hcontent⟩, by rintro _ _ ⟨⟩⟩

end Edit.Write

section Edited

variable {a b : Ledger} {w : Edit.Write}

theorem Ledger.Edited.resourceOf?_apply (h : Ledger.Edited w.names (w.apply a.collections) a b)
    {variableId resourceId : Text} (hb : b.collections.resourceOf? variableId = some resourceId) :
    (w.apply a.collections).resourceOf? variableId = some resourceId := by
  rw [Collections.resourceOf?_eq_some_iff] at hb ⊢
  obtain ⟨v, hget, hcontent⟩ := hb
  exact (h.stays_apply .vars variableId).resource hget hcontent

theorem Ledger.Edited.contains_resources (h : Ledger.Edited w.names (w.apply a.collections) a b)
    (resourceId : Text) :
    (w.apply a.collections).resources.contains resourceId =
      b.collections.resources.contains resourceId :=
  (h.stays_apply .resources resourceId).isSome_eq

end Edited

namespace Operation

/--
An operation succeeds in saving a variable that has a resource, and does not leave that resource to
it.
-/
structure TakesAway [Limits] (s : Service) (op : Operation) (variableId resourceId : Text) :
    Prop where
  succeeds : ∃ result, (op.perform s).1 = .ok result
  had : s.store.collections.resourceOf? variableId = some resourceId
  saves : ∃ kept, op.target? s.store = some (variableId, kept) ∧ kept ≠ some resourceId

variable {s : Service} {op : Operation} {result : Result} {w : Edit.Write}

theorem supplies_of_renames {c : Collections} {v : Variable} {name : Text} {saved : Variable}
    (h : Edit.Renames c v name saved w) : w.Supplies c := by
  obtain ⟨rfl, existing, hget, rfl⟩ := h
  exact ⟨existing, hget, rfl⟩

theorem supplies_of_savesAs {selector : Option Selector} {v : Option Variable} {name : Text}
    {content : Content → Prop} {resource : Option Resource} {saved : Variable}
    (hcontent : ∀ resourceId, content (.resource resourceId) →
      resource.map Resource.id = some resourceId)
    (h : Edit.SavesAs s.store selector v name content resource saved w) :
    w.Supplies s.store.collections := by
  unfold Edit.SavesAs at h
  split at h
  . exact supplies_of_renames h
  . obtain ⟨-, hsaved, rfl⟩ := h
    intro resourceId heq
    rw [heq] at hsaved
    exact hcontent resourceId hsaved

theorem supplies_of_resets {selector : Option Selector} {propertyId : Option Text} {name : Text}
    {p : Option Property} (h : Edit.Resets s.store selector propertyId name p w) :
    w.Supplies s.store.collections := by
  cases h with
  | starts _ hsets =>
    rw [hsets.write]
    trivial
  | erases _ => trivial
  | nothing _ => trivial

theorem supplies_of_allows [Limits] (h : Allows s op result w) :
    w.Supplies s.store.collections := by
  cases h with
  | save h =>
    apply supplies_of_savesAs _ h
    rintro resourceId ⟨value, hvalue⟩
    cases hvalue
  | saveResource h =>
    apply supplies_of_savesAs _ h
    intro resourceId heq
    cases heq
    rfl
  | rename h => exact supplies_of_renames h
  | delete _ _ _ => trivial
  | bind _ _ _ h =>
    rw [h.write]
    trivial
  | setExpression _ _ _ h =>
    rw [h.write]
    trivial
  | blank h => exact supplies_of_resets h
  | removeExpression h => exact supplies_of_resets h

theorem resourceOf?_perform [Limits] (observe : ∀ listener ∈ s.store.listeners, listener.Observes)
    (op : Operation) {variableId resourceId : Text}
    (h : (op.perform s).2.store.collections.resourceOf? variableId = some resourceId) :
    (op.perform s).2.store.collections.resources.contains resourceId = true ∨
      s.store.collections.resourceOf? variableId = some resourceId ∧
        (s.store.collections.resources.contains resourceId = true →
          ∃ other ≠ variableId, op.TakesAway s other resourceId) := by
  have hstore := (performed op s).store
  cases hresult : (op.perform s).1 with
  | error failure =>
    simp only [hresult] at hstore
    have hsame : (op.perform s).2.store.collections = s.store.collections :=
      congrArg Ledger.collections hstore.1
    rw [hsame] at h ⊢
    by_cases hstored : s.store.collections.resources.contains resourceId = true
    . exact .inl hstored
    . exact .inr ⟨h, fun h => absurd h hstored⟩
  | ok result =>
    simp only [hresult] at hstore
    obtain ⟨w, hallows, hstore⟩ := hstore
    have hedited : Ledger.Edited w.names (w.apply s.store.ledger.collections) s.store.ledger
      (op.perform s).2.store.ledger := hstore.ledger observe
    have hresources := hedited.contains_resources resourceId
    change _ = (op.perform s).2.store.collections.resources.contains resourceId at hresources
    rw [← hresources]
    rcases Edit.Write.resourceOf?_apply (supplies_of_allows hallows) (hedited.resourceOf?_apply h)
      with hput | ⟨hhad, hother⟩
    . exact .inl hput
    . by_cases hkept : (w.apply s.store.collections).resources.contains resourceId = true
      . exact .inl hkept
      . refine .inr ⟨hhad, fun hstored => ?_⟩
        obtain ⟨v, resource, rfl, hdropped, hne⟩ :=
          (Edit.Write.contains_resources_apply hstored).resolve_left hkept
        exact ⟨v.id, hother v resource rfl, ⟨result, hresult⟩, hdropped, _,
          target?_of_allows hallows, hne⟩

/--
Where every variable with a resource has one that is stored, a variable whose resource is not stored
after some operations has lost it to one of them: it had that resource when the operation took the
same one away from another variable, by saving that with a value or with another resource.
-/
theorem performAll_resourceOf? [Limits] (s : Service) (ops : List Operation)
    (observe : ∀ listener ∈ s.store.listeners, listener.Observes)
    (h : s.store.collections.ResourcesStored) {variableId resourceId : Text}
    (hresource : (performAll ops s).store.collections.resourceOf? variableId = some resourceId) :
    (performAll ops s).store.collections.resources.contains resourceId = true ∨
      ∃ before op after, ops = before ++ op :: after ∧
        (performAll before s).store.collections.resourceOf? variableId = some resourceId ∧
        ∃ other ≠ variableId, op.TakesAway (performAll before s) other resourceId := by
  induction ops using List.reverseRecOn with
  | nil => exact .inl (h variableId resourceId hresource)
  | append_singleton earlier op ih =>
    rw [performAll_append_singleton] at hresource ⊢
    have hobserve := observes_performAll observe earlier
    rcases resourceOf?_perform hobserve op hresource with hstored | ⟨hhad, htakes⟩
    . exact .inl hstored
    . rcases ih hhad with hstored | ⟨before, taking, after, rfl, hblame⟩
      . exact .inr ⟨earlier, op, [], rfl, hhad, htakes hstored⟩
      . exact .inr ⟨before, taking, after ++ [op], by simp, hblame⟩

def posts (resourceId : Text) : Resource :=
  ⟨resourceId, "posts", .get, "/posts", [], none⟩

def sharingProject : Project where
  instances := [⟨"body", "Body", none, none⟩]
  vars := [⟨"a", "first", "body", .resource "r1"⟩, ⟨"b", "second", "body", .resource "r1"⟩]
  resources := [posts "r1"]
  props := []

def sharing : Service :=
  .new (sharingProject.toStore ⟨"v", 0⟩ ⟨"t", 0⟩) .default

def replacing : List Operation :=
  [.saveResource (some ["body"]) (some ⟨"a", "first", "body", .resource "r1"⟩) "first" (posts "r2")]

theorem resourcesStored_sharing : sharing.store.collections.ResourcesStored := by
  rw [Collections.resourcesStored_iff]
  have hlist : sharing.store.collections.variableList = sharingProject.vars := by decide
  rw [hlist]
  intro v hv resourceId hcontent
  simp only [sharingProject, List.mem_cons, List.not_mem_nil, or_false] at hv
  rcases hv with rfl | rfl
  . cases hcontent
    decide
  . cases hcontent
    decide

theorem performAll_resourceOf?_replacing :
    let b : Text := "b"
    let r1 : Text := "r1"
    (performAll replacing sharing).store.collections.resources.contains r1 = true ∨
      ∃ before op after, replacing = before ++ op :: after ∧
        (performAll before sharing).store.collections.resourceOf? b = some r1 ∧
        ∃ other ≠ b, op.TakesAway (performAll before sharing) other r1 :=
  performAll_resourceOf? sharing replacing (fun _ hmem => absurd hmem List.not_mem_nil)
    resourcesStored_sharing (by decide)

theorem not_resourcesStored_performAll :
    ¬ ∀ (s : Service) (ops : List Operation),
      (∀ listener ∈ s.store.listeners, listener.Observes) →
      s.store.collections.ResourcesStored →
        (performAll ops s).store.collections.ResourcesStored := by
  intro h
  have hstored := h sharing replacing (fun _ hmem => absurd hmem List.not_mem_nil)
    resourcesStored_sharing "b" "r1" (by decide)
  revert hstored
  decide

end Operation

end PageBinding
