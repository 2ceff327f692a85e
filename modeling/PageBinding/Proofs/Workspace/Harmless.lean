import PageBinding.Proofs.Edit.Written
import PageBinding.Proofs.Project
import PageBinding.Proofs.Usage
import PageBinding.Proofs.Workspace.Problems

/-!
This module contains the writes that do no harm: where nothing is wrong with any prop, nothing is
wrong with any prop afterwards.
-/

namespace PageBinding

structure Variable.Replaces (v existing : Variable) : Prop where
  id : v.id = existing.id
  scope : v.scope = existing.scope
  isParameter : v.isParameter = true → existing.isParameter = true

theorem Variable.Replaces.refl (v : Variable) : v.Replaces v :=
  ⟨rfl, rfl, fun h => h⟩

theorem Scope.IsShown.replaced {tree : InstanceTree} {collectionComponent : Text}
    {selector : Selector} {v existing : Variable}
    (h : IsShown tree collectionComponent selector existing) (hreplaces : v.Replaces existing) :
    IsShown tree collectionComponent selector v := by
  cases selector with
  | nil => exact h
  | cons instanceId ancestors =>
    obtain ⟨hhidden, hscope⟩ := h
    rw [← hreplaces.scope] at hscope
    refine ⟨?_, hscope⟩
    cases hv : isHidden tree collectionComponent instanceId v with
    | false => rfl
    | true =>
      -- What replaces a variable is hidden only where that one is hidden as well.
      simp only [isHidden, Bool.and_eq_true, decide_eq_true_eq] at hv
      obtain ⟨⟨hparameter, rfl⟩, hcomponent⟩ := hv
      simp [isHidden, hreplaces.isParameter hparameter, hreplaces.scope ▸ hcomponent,
        hreplaces.scope] at hhidden

variable [Limits]

structure Collections.Valid (p : Project) (settings : Settings) (c : Collections) : Prop
    extends c.Usable where
  placed : ∀ v ∈ c.variableList, v.scope ∈ p.instances.map Instance.id
  fits : ∀ q ∈ c.propertyList, Workspace.Fits p settings c q

namespace Workspace

variable {p : Project} {settings : Settings} {c c' : Collections}

theorem refers_of_mem {q : Property} {source : Source}
    (hsource : source ∈ sources settings.effects q) {ids : List Expression.Identifier}
    (hids : Expression.identifiers? source.mode false source.text = .ok (some ids))
    {id : Expression.Identifier} (hid : id ∈ ids) {variableId : Text} (hne : variableId ≠ [])
    (hencode : Reference.encode variableId = id.name) :
    Usage.Refers settings.effects q variableId := by
  -- The check and the scan of the props read the same texts in the same way.
  have htext : (source.mode, source.text) ∈ Usage.texts (some settings.effects) q := by
    unfold sources at hsource
    unfold Usage.texts
    cases hvalue : q.value with
    | literal type literal => simp [hvalue] at hsource
    | expression t =>
      simp only [hvalue, List.mem_singleton] at hsource
      simp [hsource]
    | action steps =>
      simp only [hvalue, List.mem_map] at hsource
      obtain ⟨step, hstep, rfl⟩ := hsource
      exact List.mem_map_of_mem hstep
  obtain ⟨referenced, hreferenced⟩ := Expression.referencedIds_eq_ok hids
  refine ⟨source.mode, source.text, htext, referenced, hreferenced, ?_⟩
  rw [Expression.mem_referencedIds hreferenced]
  exact ⟨ids, hids, id, hid, by rw [← hencode, Reference.decode?_encode hne]⟩

theorem Fits.replaced {q : Property} (h : Fits p settings c q)
    (hnamed : ∀ v ∈ c.variableList, v.id ≠ [])
    (hreplaced : ∀ v ∈ c.variableList, Usage.Refers settings.effects q v.id →
      ∃ v' ∈ c'.variableList, v'.Replaces v) : Fits p settings c' q := by
  rcases h with hliteral | ⟨selector, hselector, hsources⟩
  . exact .inl hliteral
  . refine .inr ⟨selector, hselector, ?_⟩
    intro source hsource
    obtain ⟨ids, hids, hknown⟩ := hsources source hsource
    refine ⟨ids, hids, ?_⟩
    intro id hid
    rcases hknown id hid with ⟨v, hv, hshown, hencode⟩ | hlocal
    . have hrefers := refers_of_mem hsource hids hid (hnamed v hv) hencode
      obtain ⟨v', hv', hreplaces⟩ := hreplaced v hv hrefers
      exact .inl ⟨v', hv', hshown.replaced hreplaces, by rw [hreplaces.id, hencode]⟩
    . exact .inr hlocal

end Workspace

namespace Edit

variable {p : Project} {settings : Settings} {c : Collections} {w : Write}

/--
A write puts nothing but variables that replace those which have been there, erases no variable that
a prop refers to, and gives no prop a value that something is wrong with.
-/
structure Write.Harmless (p : Project) (settings : Settings) (c : Collections)
    (w : Write) :
    Prop where
  put : ∀ key v, w.putVariable? = some (key, v) → v.id = key ∧ v.id ≠ [] ∧
    v.scope ∈ p.instances.map Instance.id ∧
    ∀ existing, c.vars.get? key = some (.variable_ existing) → v.Replaces existing
  erase : ∀ id, w = .erase id → ∀ q ∈ c.propertyList, ¬ Usage.Refers settings.effects q id
  set : ∀ q, w = .setProperty q → Workspace.Fits p settings c q

namespace Write.Harmless

theorem isFiled (h : w.Harmless p settings c) : w.IsFiled := by
  cases w with
  | rename id v => exact (h.put id v rfl).1
  | nothing => trivial
  | save v resource => trivial
  | erase id => trivial
  | setProperty q => trivial
  | eraseProperty id => trivial

theorem exists_replaces (h : w.Harmless p settings c) (hfiled : c.Filed) {v : Variable}
    (hv : v ∈ c.variableList) (hkept : w ≠ .erase v.id) :
    ∃ v' ∈ (w.apply c).variableList, v'.Replaces v := by
  have hget := hfiled.get?_vars_of_mem (Collections.mem_variableList_iff.mp hv)
  have hmem {v' : Variable} (hv' : (w.apply c).vars.get? v.id = some (.variable_ v')) :
      v' ∈ (w.apply c).variableList :=
    Collections.mem_variableList_iff.mpr (Collection.mem_values_iff.mpr ⟨v.id, hv'⟩)
  rcases get?_vars_cases c w v.id with hsame | ⟨herased, -⟩ | ⟨v', hput, hget'⟩
  . exact ⟨v, hmem (hsame.trans hget), .refl v⟩
  . exact absurd herased hkept
  . obtain ⟨-, -, -, hreplaces⟩ := h.put v.id v' hput
    exact ⟨v', hmem hget', hreplaces v hget⟩

end Write.Harmless

end Edit

namespace Collections.Valid

variable {p : Project} {settings : Settings} {a b : Ledger} {w : Edit.Write}

theorem edited (h : a.collections.Valid p settings)
    (hedited : Ledger.Edited w.names (w.apply a.collections) a b)
    (hw : w.Harmless p settings a.collections) : b.collections.Valid p settings := by
  have hfiled : b.collections.Filed :=
    hedited.filed h.filed (Edit.Write.filed_apply h.filed hw.isFiled)
  have hvariables : b.collections.variableList = a.collections.variableList ∨
      b.collections.variableList = (w.apply a.collections).variableList :=
    hedited.vars_cases.imp (fun heq => by rw [Collections.variableList, heq]; rfl)
      fun heq => by rw [Collections.variableList, heq]; rfl
  have hmem {v : Variable} (hv : v ∈ b.collections.variableList) :
      v ∈ a.collections.variableList ∨ v.id ≠ [] ∧ v.scope ∈ p.instances.map Instance.id := by
    rcases hedited.mem_variableList hv with hold | ⟨key, hput⟩
    . exact .inl hold
    . obtain ⟨-, hne, hscope, -⟩ := hw.put key v hput
      exact .inr ⟨hne, hscope⟩
  have hreplaced {v : Variable} (hv : v ∈ a.collections.variableList) (hkept : w ≠ .erase v.id) :
      ∃ v' ∈ b.collections.variableList, v'.Replaces v := by
    rcases hvariables with heq | heq
    . exact ⟨v, heq ▸ hv, .refl v⟩
    . rw [heq]
      exact hw.exists_replaces h.filed hv hkept
  refine ⟨⟨hfiled, ?_⟩, ?_, ?_⟩
  . intro v hv
    exact (hmem hv).elim (h.named v) And.left
  . intro v hv
    exact (hmem hv).elim (h.placed v) And.right
  . intro q hq
    rcases hedited.mem_propertyList hq with rfl | hold
    . refine (hw.set q rfl).replaced h.named fun v hv _ => hreplaced hv ?_
      exact Edit.Write.noConfusion
    . -- Nothing that the prop refers to can be what has been erased.
      refine (h.fits q hold).replaced h.named fun v hv hrefers => hreplaced hv ?_
      intro herase
      exact hw.erase v.id herase q hold hrefers

end Collections.Valid

end PageBinding
