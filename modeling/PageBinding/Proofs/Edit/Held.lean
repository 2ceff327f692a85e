import Mathlib
import PageBinding.Proofs.Edit.Written

/-!
This module contains what the store holds after an operation has returned an entity: that entity, or
what it has held before if the two are worth the same. The difference of a collection goes by what
the entities in it are worth, so a number that takes the place of an equal truth value is dropped.
-/

namespace PageBinding

namespace Edit

inductive Saved where
  | variable_ (v : Variable)
  | property (p : Property)

namespace Saved

def entity : Saved → Entity
  | variable_ v => .variable_ v
  | property p => .property p

def collection : Saved → CollectionName
  | variable_ _ => .vars
  | property _ => .props

def id : Saved → Text
  | variable_ v => v.id
  | property p => p.id

end Saved

inductive Saving where
  | save (selector : Option Selector) (v : Option Variable) (name text : Text)
  | saveResource (selector : Option Selector) (v : Option Variable) (name : Text)
    (resource : Resource)
  | rename (v : Variable) (name : Text)
  | setProperty (selector : Option Selector) (propertyId : Option Text) (name : Text)
    (value : PropertyValue)
  | bind (collectionComponent : Text) (selector : Option Selector) (propertyId : Option Text)
    (name : Text) (v : Variable)
  | setExpression (collectionComponent : Text) (selector : Option Selector)
    (propertyId : Option Text) (name text : Text) (declared : Option PropertyMeta)

namespace Saving

def edit [Limits] : Saving → Edit (Option Saved)
  | save selector v name text => do return some (.variable_ (← Edit.save selector v name text))
  | saveResource selector v name resource => do
    return some (.variable_ (← Edit.saveResource selector v name resource))
  | rename v name => do return some (.variable_ (← Edit.rename v name))
  | setProperty selector propertyId name value => do
    return some (.property (← Edit.setProperty selector propertyId name value))
  | bind collectionComponent selector propertyId name v => do
    return some (.property (← Edit.bind collectionComponent selector propertyId name v))
  | setExpression collectionComponent selector propertyId name text declared => do
    return (← Edit.setExpression collectionComponent selector propertyId name text declared).map
      .property

/--
The key under which a call puts what it returns. What is renamed stays under its key.
-/
def key (call : Saving) (e : Saved) : Text :=
  match call with
  | rename v _ => v.id
  | save _ v _ _ | saveResource _ v _ _ =>
    ((v.filter Variable.isParameter).map Variable.id).getD e.id
  | setProperty .. | bind .. | setExpression .. => e.id

end Saving

def Write.put? : Write → Option (Text × Saved)
  | .rename id v => some (id, .variable_ v)
  | .save v _ => some (v.id, .variable_ v)
  | .setProperty p => some (p.id, .property p)
  | _ => none

theorem Write.under?_apply_of_put? {c : Collections} {w : Write} {key : Text} {e : Saved}
    (h : w.put? = some (key, e)) :
    e.collection ∈ w.names ∧ (w.apply c).under? e.collection key = some e.entity := by
  cases w with
  | rename id v =>
    cases h
    refine ⟨List.mem_singleton.mpr rfl, ?_⟩
    simp [Saved.collection, Saved.entity, Collections.under?, Collections.get, apply,
      Collection.get?_insert]
  | save v resource =>
    cases h
    refine ⟨List.mem_cons_self, ?_⟩
    simp [Saved.collection, Saved.entity, Collections.under?, Collections.get, vars_apply_save,
      Collection.get?_insert]
  | setProperty p =>
    cases h
    refine ⟨List.mem_singleton.mpr rfl, ?_⟩
    simp [Saved.collection, Saved.entity, Collections.under?, Collections.get, apply,
      Collections.putProperty, Collection.get?_insert]
  | nothing => cases h
  | erase id => cases h
  | eraseProperty id => cases h

structure Puts (c : Collections) (key : Text) (e : Saved) (w : Write) : Prop where
  put : w.put? = some (key, e)
  filed : c.Filed → key = e.id

variable {s : Store} {w : Write}

theorem puts_of_renames {c : Collections} {v : Variable} {name : Text} {saved : Variable}
    (h : Renames c v name saved w) : Puts c v.id (.variable_ saved) w := by
  refine ⟨by rw [h.write]; rfl, ?_⟩
  intro hfiled
  have hid := hfiled.existing h
  rw [h.write] at hid
  exact hid.symm

theorem puts_of_savesAs {selector : Option Selector} {v : Option Variable} {name : Text}
    {content : Content → Prop} {resource : Option Resource} {saved : Variable}
    (h : SavesAs s selector v name content resource saved w) :
    Puts s.collections (((v.filter Variable.isParameter).map Variable.id).getD saved.id)
      (.variable_ saved) w := by
  unfold SavesAs at h
  split at h
  . next heq =>
    rw [heq]
    exact puts_of_renames h
  . next heq =>
    rw [heq, h.2.2]
    exact ⟨rfl, fun _ => rfl⟩

theorem puts_of_sets {selector : Option Selector} {propertyId : Option Text} {name : Text}
    {value : PropertyValue} {p : Property} (h : Sets s selector propertyId name value p w) :
    Puts s.collections p.id (.property p) w :=
  ⟨by rw [h.write]; rfl, fun _ => rfl⟩

theorem Saving.ensures_edit [Limits] (call : Saving) :
    Ensures call.edit s fun result w =>
      ∀ e, result = some e → Puts s.collections (call.key e) e w := by
  cases call with
  | save selector v name text =>
    apply ensures_bind_pure (ensures_save selector v name text)
    rintro saved w h _ ⟨⟩
    exact puts_of_savesAs h
  | saveResource selector v name resource =>
    apply ensures_bind_pure (ensures_saveResource selector v name resource)
    rintro saved w h _ ⟨⟩
    exact puts_of_savesAs h
  | rename v name =>
    apply ensures_bind_pure (ensures_rename v name)
    rintro saved w h _ ⟨⟩
    exact puts_of_renames h
  | setProperty selector propertyId name value =>
    apply ensures_bind_pure (ensures_setProperty selector propertyId name value)
    rintro p w h _ ⟨⟩
    exact puts_of_sets h
  | bind collectionComponent selector propertyId name v =>
    apply ensures_bind_pure (ensures_bind collectionComponent selector propertyId name v)
    rintro p w ⟨seen, identifier, -, -, -, h⟩ _ ⟨⟩
    exact puts_of_sets h
  | setExpression collectionComponent selector propertyId name text declared =>
    apply ensures_bind_pure
      (ensures_setExpression collectionComponent selector propertyId name text declared)
    intro result w h e hresult
    split at h
    . cases h with
      | starts _ hsets =>
        cases hresult
        exact puts_of_sets hsets
      | erases _ => cases hresult
      | nothing _ => cases hresult
    . obtain ⟨seen, aliases, code, p, -, -, -, rfl, hsets⟩ := h
      cases hresult
      exact puts_of_sets hsets

/--
What a call returns is in the store afterwards, unless what has been there before is worth the same
and has been left there. It is under its id if everything is filed where it belongs.
-/
theorem Saving.held [Limits] (call : Saving) {s' : Store} {e : Saved}
    (observe : ∀ listener ∈ s.listeners, listener.Observes)
    (h : call.edit.run s = (.ok (some e), s')) :
    (s.collections.Filed → call.key e = e.id) ∧
      (s'.collections.under? e.collection (call.key e) = some e.entity ∨
        ∃ before, s.collections.under? e.collection (call.key e) = some before ∧
          e.entity.agrees before = true ∧
          s'.collections.under? e.collection (call.key e) = some before) := by
  have hensures := call.ensures_edit (s := s)
  unfold Ensures at hensures
  rw [h] at hensures
  obtain ⟨w, hputs, hedited⟩ := hensures
  obtain ⟨hput, hfiled⟩ := hputs e rfl
  obtain ⟨hname, hunder⟩ := Write.under?_apply_of_put? (c := s.collections) hput
  exact ⟨hfiled, (hedited.ledger observe).holds hname hunder⟩

def flags (items : List Value) : Variable :=
  ⟨"v", "flags", "body", .value (.json (.list items))⟩

def flagsProject : Project where
  instances := [⟨"body", "Body", none, none⟩]
  vars := [flags [.number (.int 1)]]
  resources := []
  props := []

def flagsStore : Store :=
  flagsProject.toStore ⟨"v", 0⟩ ⟨"t", 0⟩

/--
A variable that holds a list with the number one is given a list with a truth value.
-/
def settingFlags : Saving :=
  .save (some ["body"]) (some (flags [])) "flags" "[true]"

theorem outcome_settingFlags :
    (settingFlags.edit.run flagsStore).map id (fun s' => s'.collections.under? .vars "v") =
      (.ok (some (.variable_ (flags [.bool true]))),
        some (.variable_ (flags [.number (.int 1)]))) := by
  cbv

theorem returned_settingFlags :
    (settingFlags.edit.run flagsStore).1 = .ok (some (.variable_ (flags [.bool true]))) :=
  congrArg Prod.fst outcome_settingFlags

theorem Saving.held_settingFlags :
    (flagsStore.collections.Filed → settingFlags.key (.variable_ (flags [.bool true])) = "v") ∧
      ((settingFlags.edit.run flagsStore).2.collections.under? .vars "v" =
          some (.variable_ (flags [.bool true])) ∨
        ∃ before, flagsStore.collections.under? .vars "v" = some before ∧
          (Entity.variable_ (flags [.bool true])).agrees before = true ∧
          (settingFlags.edit.run flagsStore).2.collections.under? .vars "v" = some before) :=
  settingFlags.held (fun _ hmem => absurd hmem List.not_mem_nil)
    (Prod.ext returned_settingFlags rfl)

/--
What a call returns need not be what the store holds.
-/
theorem Saving.not_held_settingFlags :
    ¬ ∀ (call : Saving) (s s' : Store) (e : Saved), call.edit.run s = (.ok (some e), s') →
      s'.collections.under? e.collection e.id = some e.entity := by
  intro hheld
  have hreturned := hheld settingFlags flagsStore _ _ (Prod.ext returned_settingFlags rfl)
  have hstored := (congrArg Prod.snd outcome_settingFlags).symm.trans hreturned
  revert hstored
  decide

end Edit

end PageBinding
