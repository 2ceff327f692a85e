import PageBinding.Proofs.Edit.Write
import PageBinding.Proofs.Traversal

/-!
This module contains what each operation ensures: which write it makes, and what has been checked by
then.
-/

namespace PageBinding

namespace Edit

variable {s : Store}

structure Renames (c : Collections) (v : Variable) (name : Text) (saved : Variable) (w : Write) :
    Prop where
  write : w = .rename v.id saved
  stored : ∃ existing, c.vars.get? v.id = some (.variable_ existing) ∧
    saved = { existing with name }

/--
A variable has been saved under the id of the one that was given, or under a fresh one.
-/
structure Saves (s : Store) (selector : Option Selector) (v : Option Variable) (name : Text)
    (saved : Variable) : Prop where
  id : saved.id = (v.map Variable.id).getD s.takeId.1
  name : saved.name = name
  scope : ∃ instanceId, requireInstance selector = .ok instanceId ∧
    checkScope s saved.id instanceId = .ok () ∧
    scopeFor s.collections saved.id instanceId = .ok saved.scope

/--
A prop has got a value. It is the one under the given id if there is one, else a new one.
-/
structure Sets (s : Store) (selector : Option Selector) (propertyId : Option Text) (name : Text)
    (value : PropertyValue) (p : Property) (w : Write) : Prop where
  write : w = .setProperty p
  bound : p.value = value
  place : ∃ instanceId, requireInstance selector = .ok instanceId ∧
    ((∃ existing id, propertyId = some id ∧
        existingProperty s.collections id = .ok (some existing) ∧ p = { existing with value }) ∨
      (∀ id, propertyId = some id → existingProperty s.collections id = .ok none) ∧
        p = ⟨s.takeId.1, instanceId, name, value⟩)

theorem ensures_rename [Limits] (v : Variable) (name : Text) :
    Ensures (rename v name) s (Renames s.collections v name) := by
  unfold rename
  apply ensures_ofExcept_bind
  intro _ _
  apply ensures_get_bind
  split
  . exact ensures_throw _
  . apply ensures_commit (by decide)
    intro saved c ids hchange
    cases hrenamed : renamed s.collections v.id name with
    | error failure =>
      rw [hrenamed] at hchange
      cases hchange
    | ok saved =>
      rw [hrenamed] at hchange
      cases hchange
      refine ⟨.rename v.id saved, ⟨rfl, ?_⟩, rfl, rfl⟩
      unfold renamed at hrenamed
      split at hrenamed
      . cases hrenamed
      . next existing hstored =>
        cases hrenamed
        exact ⟨existing, hstored, rfl⟩
      . cases hrenamed

theorem ensures_targetId_bind {α : Type} {v : Option Variable} {instanceId : Text}
    {next : Text → Edit α} {holds : α → Write → Prop}
    (h : ∀ id ids, id = (v.map Variable.id).getD s.takeId.1 →
      checkScope s id instanceId = .ok () → Ensures (next id) { s with ids } holds) :
    Ensures (targetId v instanceId >>= next) s holds := by
  unfold targetId
  cases v with
  | some v =>
    rw [bind_assoc, pure_bind, bind_assoc]
    apply ensures_get_bind
    rw [bind_assoc]
    apply ensures_ofExcept_bind
    intro _ hscope
    rw [pure_bind]
    exact h v.id s.ids rfl hscope
  | none =>
    rw [bind_assoc]
    apply ensures_takeId_bind
    intro ids
    rw [bind_assoc]
    apply ensures_get_bind
    rw [bind_assoc]
    apply ensures_ofExcept_bind
    intro _ hscope
    rw [pure_bind]
    exact h s.takeId.1 ids rfl hscope

def SavesAs (s : Store) (selector : Option Selector) (v : Option Variable) (name : Text)
    (content : Content → Prop) (resource : Option Resource) (saved : Variable) (w : Write) : Prop :=
  match v.filter Variable.isParameter with
  | some parameter => Renames s.collections parameter name saved w
  | none => Saves s selector v name saved ∧ content saved.content ∧ w = .save saved resource

theorem ensures_rename_parameter [Limits] (selector : Option Selector) {v : Option Variable}
    {parameter : Variable} (hparameter : v.filter Variable.isParameter = some parameter)
    (name : Text) (content : Content → Prop) (resource : Option Resource) :
    Ensures (rename parameter name) s (SavesAs s selector v name content resource) := by
  apply ensures_mono (ensures_rename parameter name)
  intro saved w hrenames
  rw [SavesAs, hparameter]
  exact hrenames

theorem ensures_commit_save [Limits] {selector : Option Selector} {v : Option Variable}
    {name : Text}
    {content : Content → Prop} {resource : Option Resource} {instanceId id : Text} {ids : IdSupply}
    {stored : Content} {written : Variable → List (CollectionName × Text)}
    {change : Collections → IdSupply → Except Failure (Variable × Collections × IdSupply)}
    (hparameter : v.filter Variable.isParameter = none)
    (hinstance : requireInstance selector = .ok instanceId)
    (hid : id = (v.map Variable.id).getD s.takeId.1) (hscope : checkScope s id instanceId = .ok ())
    (hstored : content stored)
    (hchange : ∀ c ids, change c ids = (do
      let scope ← scopeFor c id instanceId
      let saved : Variable := ⟨id, name, scope, stored⟩
      return (saved, (Write.save saved resource).apply c, ids))) :
    Ensures (commit [.vars, .resources] written change) { s with ids }
      (SavesAs s selector v name content resource) := by
  apply ensures_commit (by decide)
  intro saved c ids' hdone
  rw [hchange] at hdone
  obtain ⟨scope, hscopeFor, heq⟩ := Traversal.bind_eq_ok_iff.mp hdone
  cases heq
  refine ⟨.save _ resource, ?_, rfl, rfl⟩
  rw [SavesAs, hparameter]
  exact ⟨⟨hid, rfl, instanceId, hinstance, hscope, hscopeFor⟩, hstored, rfl⟩

theorem SavesAs.mono {selector : Option Selector} {v : Option Variable} {name : Text}
    {content content' : Content → Prop} {resource : Option Resource} {saved : Variable} {w : Write}
    (h : SavesAs s selector v name content resource saved w) (himp : ∀ c, content c → content' c) :
    SavesAs s selector v name content' resource saved w := by
  rw [SavesAs] at h ⊢
  cases hparameter : v.filter Variable.isParameter with
  | some parameter =>
    rw [hparameter] at h
    exact h
  | none =>
    rw [hparameter] at h
    exact ⟨h.1, himp _ h.2.1, h.2.2⟩

variable [Limits]

theorem ensures_save_evaluated (selector : Option Selector) (v : Option Variable)
    (name text : Text) :
    Ensures (save selector v name text) s
      (SavesAs s selector v name (fun content => ∃ value, Expression.evaluate text = .ok value ∧
        content = .value (TypedValue.ofValue value)) none) := by
  unfold save
  apply ensures_ofExcept_bind
  intro _ _
  split
  . next hparameter => exact ensures_rename_parameter selector hparameter name _ _
  . next hparameter =>
    apply ensures_ofExcept_bind
    intro value hvalue
    apply ensures_ofExcept_bind
    intro instanceId hinstance
    apply ensures_targetId_bind
    intro id ids hid hscope
    exact ensures_commit_save hparameter hinstance hid hscope ⟨value, hvalue, rfl⟩ fun _ _ => rfl

theorem ensures_save (selector : Option Selector) (v : Option Variable)
    (name text : Text) :
    Ensures (save selector v name text) s
      (SavesAs s selector v name (fun content => ∃ value, content = .value value) none) := by
  apply ensures_mono (ensures_save_evaluated selector v name text)
  intro saved w h
  refine h.mono ?_
  rintro content ⟨value, -, hcontent⟩
  exact ⟨_, hcontent⟩

theorem ensures_saveResource (selector : Option Selector) (v : Option Variable)
    (name : Text)
    (resource : Resource) :
    Ensures (saveResource selector v name resource) s
      (SavesAs s selector v name (fun content => content = .resource resource.id)
        (some resource)) := by
  unfold saveResource
  apply ensures_ofExcept_bind
  intro _ _
  split
  . next hparameter => exact ensures_rename_parameter selector hparameter name _ _
  . next hparameter =>
    apply ensures_ofExcept_bind
    intro instanceId hinstance
    apply ensures_targetId_bind
    intro id ids hid hscope
    exact ensures_commit_save hparameter hinstance hid hscope rfl fun _ _ => rfl

theorem ensures_eraseVariable (variableId : Text) :
    Ensures (eraseVariable variableId) s fun _ w => w = .erase variableId := by
  apply ensures_commit (by decide)
  intro a c ids hchange
  cases hchange
  exact ⟨.erase variableId, rfl, rfl, rfl⟩

theorem ensures_setProperty (selector : Option Selector) (propertyId : Option Text)
    (name : Text)
    (value : PropertyValue) :
    Ensures (setProperty selector propertyId name value) s
      (Sets s selector propertyId name value) := by
  unfold setProperty
  apply ensures_ofExcept_bind
  intro instanceId hinstance
  apply ensures_commit (by decide)
  intro p c ids hchange
  cases propertyId with
  | none =>
    cases hchange
    exact ⟨.setProperty _, ⟨rfl, rfl, instanceId, hinstance, .inr ⟨nofun, rfl⟩⟩, rfl, rfl⟩
  | some id =>
    cases hexisting : existingProperty s.collections id with
    | error failure =>
      simp only [hexisting] at hchange
      cases hchange
    | ok existing =>
      simp only [hexisting] at hchange
      cases existing with
      | none =>
        cases hchange
        refine ⟨.setProperty _, ⟨rfl, rfl, instanceId, hinstance, .inr ⟨?_, rfl⟩⟩, rfl, rfl⟩
        rintro _ ⟨⟩
        exact hexisting
      | some existing =>
        cases hchange
        exact ⟨.setProperty _, ⟨rfl, rfl, instanceId, hinstance,
          .inl ⟨existing, id, rfl, hexisting, rfl⟩⟩, rfl, rfl⟩

theorem ensures_bind (collectionComponent : Text) (selector : Option Selector)
    (propertyId : Option Text) (name : Text) (v : Variable) :
    Ensures (bind collectionComponent selector propertyId name v) s fun p w =>
      ∃ seen identifier, visible s collectionComponent selector = .ok seen ∧
        Reference.encode? v.id = .ok identifier ∧ (∃ candidate ∈ seen, candidate.id = v.id) ∧
        Sets s selector propertyId name (.expression identifier) p w := by
  unfold bind
  apply ensures_get_bind
  apply ensures_ofExcept_bind
  intro seen hseen
  apply ensures_ofExcept_bind
  intro identifier hidentifier
  split
  . exact ensures_throw _
  . next hall =>
    apply ensures_mono (ensures_setProperty selector propertyId name (.expression identifier))
    intro p w hsets
    refine ⟨seen, identifier, hseen, hidentifier, ?_, hsets⟩
    simpa using hall

inductive Resets (s : Store) (selector : Option Selector) (propertyId : Option Text) (name : Text) :
    Option Property → Write → Prop where
  | starts {declared : PropertyMeta} {value : PropertyValue} {p : Property} {w : Write} :
      declared.startingValue = .ok (some value) → Sets s selector propertyId name value p w →
        Resets s selector propertyId name (some p) w
  | erases {id : Text} : propertyId = some id →
      Resets s selector propertyId name none (.eraseProperty id)
  | nothing : propertyId = none → Resets s selector propertyId name none .nothing

theorem ensures_reset {selector : Option Selector} {propertyId : Option Text} {name : Text}
    {starting : Option PropertyValue} (h : ∀ value, starting = some value →
      ∃ declared : PropertyMeta, declared.startingValue = .ok (some value)) :
    Ensures (reset selector propertyId name starting) s (Resets s selector propertyId name) := by
  unfold reset
  split
  . next value =>
    obtain ⟨declared, hdeclared⟩ := h value rfl
    apply ensures_bind_pure (ensures_setProperty selector propertyId name value)
    exact fun p w hsets => .starts hdeclared hsets
  . next id =>
    have herase : Ensures (commit [.props] (fun _ => []) fun c ids =>
        .ok ((), { c with props := c.props.erase id }, ids)) s
          fun _ w => w = .eraseProperty id := by
      apply ensures_commit (by decide)
      intro a c ids hchange
      cases hchange
      exact ⟨.eraseProperty id, rfl, rfl, rfl⟩
    apply ensures_bind_pure herase
    rintro _ _ rfl
    exact .erases rfl
  . exact ensures_pure (.nothing rfl)

theorem ensures_removeExpression (selector : Option Selector) (propertyId : Option Text)
    (name : Text) (declared : Option PropertyMeta) :
    Ensures (removeExpression selector propertyId name declared) s
      (Resets s selector propertyId name) := by
  unfold removeExpression
  split
  . next declared =>
    apply ensures_ofExcept_bind
    intro starting hstarting
    apply ensures_reset
    rintro value rfl
    exact ⟨declared, hstarting⟩
  . apply ensures_reset
    intro value h
    cases h

theorem ensures_setExpression (collectionComponent : Text) (selector : Option Selector)
    (propertyId : Option Text) (name text : Text) (declared : Option PropertyMeta) :
    Ensures (setExpression collectionComponent selector propertyId name text declared) s
      fun result w =>
        if text.isBlank then Resets s selector propertyId name result w
        else ∃ seen aliases code p, visible s collectionComponent selector = .ok seen ∧
          Scope.aliases seen = .ok aliases ∧
          Expression.checkNames .expression aliases.contains text = .ok code ∧
          result = some p ∧ Sets s selector propertyId name (.expression code) p w := by
  unfold setExpression
  split
  . exact ensures_removeExpression selector propertyId name declared
  . apply ensures_get_bind
    apply ensures_ofExcept_bind
    intro seen hseen
    apply ensures_ofExcept_bind
    intro aliases haliases
    apply ensures_ofExcept_bind
    intro code hcode
    apply ensures_bind_pure (ensures_setProperty selector propertyId name (.expression code))
    intro p w hsets
    exact ⟨seen, aliases, code, p, hseen, haliases, hcode, rfl, hsets⟩

end Edit

end PageBinding
