import PageBinding.Proofs.Service.Loadable
import PageBinding.Proofs.Service.References
import PageBinding.Proofs.Workspace.Harmless
import PageBinding.Workspace.Edit

/-!
This module contains why the edits of a workspace do no harm: what they check is what the check of
the props asks for.
-/

namespace PageBinding

theorem IdSupply.take_ne_nil (supply : IdSupply) : supply.take.1 ≠ [] := by
  have hdigits : Text.ofNat (supply.taken + 1) ≠ [] := by
    intro h
    have hlength := congrArg List.length h
    simp [Text.ofNat, Text.ofChars, Nat.toDigits_ne_nil] at hlength
  exact List.append_ne_nil_of_right_ne_nil supply.stem hdigits

namespace Edit

variable {c : Collections}

theorem existingProperty_eq_ok (h : c.Filed) {q : Property} (hq : q ∈ c.propertyList) :
    existingProperty c q.id = .ok (some q) := by
  have hget := h.get?_props_of_mem (Collections.mem_propertyList_iff.mp hq)
  have hstored : c.stored? .props q.id = some (.property q) :=
    Collections.stored?_eq_some hget (by simp)
  rw [existingProperty, hstored]

end Edit

namespace Workspace

/--
A workspace whose service works on its project, with settings and a tracker to match.
-/
structure Ready [Limits] (w : Workspace) : Prop where
  valid : w.service.store.collections.Valid w.project w.service.settings
  instances : w.service.store.instances = w.project.tree
  allowed : w.service.tracker.effects = some w.service.settings.effects
  current : w.service.tracker.Current w.service.store

inductive Requests (w : Workspace) : Operation → Prop where
  | save {instanceId name text : Text} {selector : Selector} {v : Option Variable} :
      (∀ given, v = some given → given ∈ w.service.store.collections.variableList) →
      w.project.selector instanceId = .ok selector →
        Requests w (.save (some selector) v name text)
  | delete (variableId : Text) : Requests w (.delete variableId)
  | bind {instanceId name : Text} {selector : Selector} (v : Variable) :
      w.project.selector instanceId = .ok selector →
        Requests w (.bind (some selector) ((w.propertyOf? instanceId name).map Property.id) name v)
  | setExpression {instanceId name : Text} {selector : Selector} (text : Text)
      (declared : Option PropertyMeta) :
      w.project.selector instanceId = .ok selector →
        Requests w (.setExpression (some selector)
          ((w.propertyOf? instanceId name).map Property.id) name text declared)

variable {w : Workspace}

theorem harmless_of_renames [Limits] {p : Project} {settings : Settings} {c : Collections}
    (h : c.Valid p settings) {v : Variable} {name : Text} {saved : Variable} {write : Edit.Write}
    (hrenames : Edit.Renames c v name saved write) : write.Harmless p settings c := by
  obtain ⟨rfl, existing, hget, rfl⟩ := hrenames
  have hmem : existing ∈ c.variableList :=
    Collections.mem_variableList_iff.mpr (Collection.mem_values_iff.mpr ⟨v.id, hget⟩)
  obtain ⟨_, heq, hid⟩ := h.filed .vars v.id _ hget
  cases heq
  constructor
  . intro key renamed hput
    cases hput
    refine ⟨hid, h.named existing hmem, h.placed existing hmem, ?_⟩
    intro other hother
    rw [hget] at hother
    cases hother
    exact ⟨rfl, rfl, fun hparameter => hparameter⟩
  . intro id heq
    cases heq
  . intro q heq
    cases heq

theorem replaces_of_saves [Limits] (h : w.Ready) {selector : Selector} {v : Option Variable}
    {name : Text}
    {saved : Variable} (hsaves : Edit.Saves w.service.store (some selector) v name saved)
    (hvalue : ∃ value, saved.content = .value value) {existing : Variable}
    (hget : w.service.store.collections.vars.get? saved.id = some (.variable_ existing)) :
    saved.Replaces existing := by
  obtain ⟨_, heq, hid⟩ := h.valid.filed .vars saved.id _ hget
  cases heq
  obtain ⟨selected, -, -, hscopeFor⟩ := hsaves.scope
  obtain ⟨value, hcontent⟩ := hvalue
  rcases Edit.scopeFor_cases h.valid.filed hscopeFor with ⟨hnew, -⟩ | ⟨_, hget', hsame⟩
  . rw [Collection.contains_eq_false_iff, hget] at hnew
    cases hnew
  . rw [hget] at hget'
    cases hget'
    refine ⟨hid.symm, hsame, ?_⟩
    intro hparameter
    simp [Variable.isParameter, Content.isParameter, hcontent] at hparameter

theorem harmless_of_saves [Limits] (h : w.Ready) {selector : Selector} {v : Option Variable}
    {name : Text}
    {saved : Variable}
    (hstored : ∀ given, v = some given → given ∈ w.service.store.collections.variableList)
    (hsaves : Edit.Saves w.service.store (some selector) v name saved)
    (hvalue : ∃ value, saved.content = .value value) :
    (Edit.Write.save saved none).Harmless w.project w.service.settings
      w.service.store.collections := by
  have hne : saved.id ≠ [] := by
    rw [hsaves.id]
    cases v with
    | none => exact w.service.store.ids.take_ne_nil
    | some given => exact h.valid.named given (hstored given rfl)
  constructor
  . intro key put hput
    cases hput
    have hscope := Edit.scope_of_saves ⟨h.valid.filed, h.valid.placed⟩ h.instances hsaves
    exact ⟨rfl, hne, hscope, fun existing => replaces_of_saves h hsaves hvalue⟩
  . intro id heq
    cases heq
  . intro q heq
    cases heq

theorem propertyOf?_spec {instanceId name : Text} {q : Property}
    (h : w.propertyOf? instanceId name = some q) :
    q ∈ w.service.store.collections.propertyList ∧ q.instanceId = instanceId ∧ q.name = name := by
  have hmatches := List.find?_some h
  simp only [Bool.and_eq_true, decide_eq_true_eq] at hmatches
  exact ⟨List.mem_of_find?_eq_some h, hmatches⟩

variable [Limits]

theorem instanceId_of_sets (h : w.Ready) {instanceId name : Text} {selector : Selector}
    (hselector : w.project.selector instanceId = .ok selector) {value : PropertyValue}
    {q : Property} {write : Edit.Write}
    (hsets : Edit.Sets w.service.store (some selector)
      ((w.propertyOf? instanceId name).map Property.id) name value q write) :
    q.instanceId = instanceId := by
  obtain ⟨ancestors, rfl⟩ := Project.selector_eq_cons hselector
  obtain ⟨selected, hselected, hplace⟩ := hsets.place
  cases hselected
  rcases hplace with ⟨existing, id, hid, hexisting, rfl⟩ | ⟨-, rfl⟩
  . cases hfound : w.propertyOf? instanceId name with
    | none =>
      rw [hfound] at hid
      cases hid
    | some found =>
      rw [hfound] at hid
      cases hid
      -- A prop that is found keeps its instance, which is the one that it has been found at.
      obtain ⟨hmem, hinstance, -⟩ := propertyOf?_spec hfound
      rw [Edit.existingProperty_eq_ok h.valid.filed hmem] at hexisting
      cases hexisting
      exact hinstance
  . rfl

theorem harmless_setProperty {p : Project} {settings : Settings} {c : Collections}
    {q : Property}
    (h : Fits p settings c q) : (Edit.Write.setProperty q).Harmless p settings c := by
  constructor
  . intro key v hput
    cases hput
  . intro id heq
    cases heq
  . intro other heq
    cases heq
    exact h

theorem sees_of_visible (h : w.Ready) {selector : Selector} {seen : List Variable}
    (hseen : w.service.visible (some selector) = .ok seen) {v : Variable} (hv : v ∈ seen) :
    Sees w.project w.service.settings selector w.service.store.collections
      (Reference.encode v.id) := by
  rw [Service.visible, Edit.visible_eq h.valid.filed, h.instances] at hseen
  cases hseen
  obtain ⟨hmem, hshown⟩ := Scope.mem_visible_iff.mp hv
  exact ⟨v, hmem, hshown, rfl⟩

theorem harmless_of_sets (h : w.Ready) {instanceId name : Text} {selector : Selector}
    (hselector : w.project.selector instanceId = .ok selector) {t : Text} {q : Property}
    {write : Edit.Write}
    (hsets : Edit.Sets w.service.store (some selector)
      ((w.propertyOf? instanceId name).map Property.id) name (.expression t) q write)
    {ids : List Expression.Identifier}
    (hids : Expression.identifiers? .expression false t = .ok (some ids))
    (hsees : ∀ id ∈ ids, Sees w.project w.service.settings selector w.service.store.collections
      id.name) :
    write.Harmless w.project w.service.settings w.service.store.collections := by
  rw [hsets.write]
  apply harmless_setProperty
  refine .inr ⟨selector, ?_, ?_⟩
  . rw [instanceId_of_sets h hselector hsets]
    exact hselector
  . intro source hsource
    rw [sources, hsets.bound, List.mem_singleton] at hsource
    subst hsource
    exact ⟨ids, hids, fun id hid => .inl (hsees id hid)⟩

theorem harmless_of_resets (h : w.Ready) {instanceId name : Text} {selector : Selector}
    (hselector : w.project.selector instanceId = .ok selector) {q : Option Property}
    {write : Edit.Write}
    (hresets : Edit.Resets w.service.store (some selector)
      ((w.propertyOf? instanceId name).map Property.id) name q write) :
    write.Harmless w.project w.service.settings w.service.store.collections := by
  cases hresets with
  | starts hdeclared hsets =>
    rw [hsets.write]
    apply harmless_setProperty
    rcases Operation.startingValue_cases hdeclared with ⟨type, literal, rfl⟩ | rfl
    . exact .inl ⟨type, literal, hsets.bound⟩
    . refine .inr ⟨selector, ?_, ?_⟩
      . rw [instanceId_of_sets h hselector hsets]
        exact hselector
      . intro source hsource
        rw [sources, hsets.bound] at hsource
        cases hsource
  | erases _ => exact ⟨nofun, nofun, nofun⟩
  | nothing _ => exact ⟨nofun, nofun, nofun⟩

theorem harmless_of_allows (h : w.Ready) {op : Operation} (hrequests : w.Requests op)
    {result : Operation.Result} {write : Edit.Write}
    (hallows : Operation.Allows w.service op result write) :
    write.Harmless w.project w.service.settings w.service.store.collections := by
  cases hrequests with
  | save hstored hselector =>
    cases hallows with
    | save hsaves =>
      unfold Edit.SavesAs at hsaves
      split at hsaves
      . exact harmless_of_renames h.valid hsaves
      . obtain ⟨hsaved, hvalue, rfl⟩ := hsaves
        exact harmless_of_saves h hstored hsaved hvalue
  | delete variableId =>
    cases hallows with
    | delete hentity hused hdeletable =>
      constructor
      . intro key v hput
        cases hput
      . intro id heq q hq
        cases heq
        exact Operation.not_refers_of_deletable h.valid.filed h.allowed h.current hentity hused
          hdeletable hq
      . intro q heq
        cases heq
  | bind v hselector =>
    cases hallows with
    | bind hseen hidentifier hcandidate hsets =>
      -- The only identifier of the text is that of a variable which the selector sees.
      obtain ⟨-, rfl⟩ := Reference.encode?_eq_ok_iff.mp hidentifier
      obtain ⟨candidate, hmem, hid⟩ := hcandidate
      refine harmless_of_sets h hselector hsets (Expression.isName_encode _).identifiers?_eq ?_
      intro id hid'
      rw [List.mem_singleton.mp hid', ← hid]
      exact sees_of_visible h hseen hmem
  | setExpression text declared hselector =>
    cases hallows with
    | setExpression hseen haliases hcode hsets =>
      obtain ⟨rfl, ids, hids, hknown⟩ := Expression.checkNames_eq_ok_iff.mp hcode
      refine harmless_of_sets h hselector hsets hids ?_
      intro id hid
      obtain ⟨v, hv, hencode⟩ := Scope.exists_of_contains_aliases haliases (hknown id hid)
      obtain ⟨-, heq⟩ := Reference.encode?_eq_ok_iff.mp hencode
      rw [heq]
      exact sees_of_visible h hseen hv
    | blank hresets => exact harmless_of_resets h hselector hresets

end Workspace

end PageBinding
