import PageBinding.Proofs.Service.Operation

/-!
This module contains the footprints of the operations: the keys under which an operation may change
something. Each operation is done as a whole or not at all, and all other entries keep their values
and their order.
-/

namespace PageBinding

abbrev Footprint := List (CollectionName × Text)

def Collections.SameOutside (footprint : Footprint) (a b : Collections) : Prop :=
  ∀ name, (b.get name).entries.filter (fun entry => decide ((name, entry.1) ∉ footprint)) =
    (a.get name).entries.filter fun entry => decide ((name, entry.1) ∉ footprint)

namespace Collections.SameOutside

variable {footprint : Footprint} {a b c : Collections}

theorem refl (footprint : Footprint) (a : Collections) : SameOutside footprint a a :=
  fun _ => rfl

theorem trans (hab : SameOutside footprint a b) (hbc : SameOutside footprint b c) :
    SameOutside footprint a c :=
  fun name => (hbc name).trans (hab name)

theorem set (a : Collections) (name : CollectionName) {collection : Collection Entity}
    (h : collection.entries.filter (fun entry => decide ((name, entry.1) ∉ footprint)) =
      (a.get name).entries.filter fun entry => decide ((name, entry.1) ∉ footprint)) :
    SameOutside footprint a (a.set name collection) := by
  intro other
  rw [Collections.get_set]
  split
  . next heq =>
    rw [heq]
    exact h
  . rfl

theorem insert (a : Collections) (name : CollectionName) {key : Text} (entity : Entity)
    (h : (name, key) ∈ footprint) :
    SameOutside footprint a (a.set name ((a.get name).insert key entity)) := by
  apply set
  apply Entries.filter_put fun key => decide ((name, key) ∉ footprint)
  simpa using h

theorem erase (a : Collections) (name : CollectionName) {key : Text}
    (h : (name, key) ∈ footprint) :
    SameOutside footprint a (a.set name ((a.get name).erase key)) := by
  apply set
  simp only [Collection.erase, List.filter_filter]
  apply List.filter_congr
  intro entry _
  by_cases heq : entry.1 = key
  . simp [heq, h]
  . simp [heq]

end Collections.SameOutside

/--
The id of the resource that supplies the value of a stored variable, if it is one with a resource.
-/
def Collections.resourceOf? (c : Collections) (variableId : Text) : Option Text :=
  match (c.findVariable? variableId).map Variable.content with
  | some (.resource resourceId) => some resourceId
  | _ => none

namespace Edit.Write

/--
The keys that a write touches: for a saved variable its own, that of its resource, and that of the
resource that it had before.
-/
def footprint (c : Collections) : Edit.Write → Footprint
  | nothing => []
  | rename id _ | erase id => [(.vars, id)]
  | save v resource =>
    (.vars, v.id) :: ((c.resourceOf? v.id).toList ++ (resource.map Resource.id).toList).map
      (CollectionName.resources, ·)
  | setProperty p => [(.props, p.id)]
  | eraseProperty id => [(.props, id)]

theorem sameOutside_dropResource (footprint : Footprint) (c : Collections) (variableId : Text)
    (kept : Option Text)
    (h : ∀ resourceId, c.resourceOf? variableId = some resourceId →
      (.resources, resourceId) ∈ footprint) :
    c.SameOutside footprint (dropResource c variableId kept) := by
  unfold Collections.resourceOf? at h
  unfold dropResource
  split
  . next resourceId heq =>
    split
    . exact .refl footprint c
    . exact .erase c .resources (h resourceId (by rw [heq]))
  . exact .refl footprint c

theorem sameOutside_apply (c : Collections) (w : Edit.Write) :
    c.SameOutside (w.footprint c) (w.apply c) := by
  cases w with
  | nothing => exact .refl _ c
  | rename id v => exact .insert c .vars (.variable_ v) (by simp [footprint])
  | save v resource =>
    have hdropped (kept : Option Text) :=
      sameOutside_dropResource (footprint c (.save v resource)) c v.id kept
        (fun resourceId hresource => by simp [footprint, hresource])
    have hsaved (c' : Collections) :
        c'.SameOutside (footprint c (.save v resource)) (c'.putVariable v) :=
      .insert c' .vars (.variable_ v) (by simp [footprint])
    cases resource with
    | none => exact (hdropped none).trans (hsaved _)
    | some resource =>
      have hput (c' : Collections) :
          c'.SameOutside (footprint c (.save v (some resource))) (c'.putResource resource) :=
        .insert c' .resources (.resource resource) (by simp [footprint])
      exact ((hdropped (some resource.id)).trans (hput _)).trans (hsaved _)
  | erase id => exact .erase c .vars (by simp [footprint])
  | setProperty p => exact .insert c .props (.property p) (by simp [footprint])
  | eraseProperty id => exact .erase c .props (by simp [footprint])

end Edit.Write

theorem Ledger.Edited.sameOutside {names : List CollectionName} {c : Collections} {a b : Ledger}
    {footprint : Footprint} (h : Ledger.Edited names c a b)
    (hc : a.collections.SameOutside footprint c) :
    a.collections.SameOutside footprint b.collections := by
  intro name
  rcases h.each name with ⟨hsame, -⟩ | ⟨-, htaken, -⟩
  . rw [hsame]
  . rw [htaken, hc name]

namespace Operation

/--
The keys that saving a variable may touch. Parameters are only renamed.
-/
def footprintOfSave (s : Store) (v : Option Variable) (resource : Option Resource) : Footprint :=
  match v.filter Variable.isParameter with
  | some parameter => [(.vars, parameter.id)]
  | none =>
    let id := (v.map Variable.id).getD s.takeId.1
    (.vars, id) :: ((s.collections.resourceOf? id).toList ++ (resource.map Resource.id).toList).map
      (CollectionName.resources, ·)

/--
The key that setting or removing a prop may touch: that of the prop which is there now, or else of
the one that has been there.
-/
def footprintOfProperty (propertyId : Option Text) (p : Option Property) : Footprint :=
  match p with
  | some p => [(.props, p.id)]
  | none => propertyId.toList.map (CollectionName.props, ·)

/--
The keys that an operation may touch when it returns a result: those of saving a variable, or one
variable, or one prop.
-/
def footprint (s : Store) (op : Operation) (result : Result) : Footprint :=
  match op with
  | .save _ v _ _ => footprintOfSave s v none
  | .saveResource _ v _ resource => footprintOfSave s v (some resource)
  | .rename v _ => [(.vars, v.id)]
  | .delete variableId => [(.vars, variableId)]
  | .bind _ propertyId _ _ | .setExpression _ propertyId .. | .removeExpression _ propertyId .. =>
    match result with
    | .property p => footprintOfProperty propertyId p
    | _ => []

theorem footprint_of_savesAs {s : Store} {selector : Option Selector} {v : Option Variable}
    {name : Text} {content : Content → Prop} {resource : Option Resource} {saved : Variable}
    {w : Edit.Write} (h : Edit.SavesAs s selector v name content resource saved w) :
    w.footprint s.collections = footprintOfSave s v resource := by
  rw [footprintOfSave]
  rw [Edit.SavesAs] at h
  cases hparameter : v.filter Variable.isParameter with
  | some parameter =>
    rw [hparameter] at h
    rw [h.write]
    rfl
  | none =>
    rw [hparameter] at h
    obtain ⟨hsaves, -, rfl⟩ := h
    rw [Edit.Write.footprint, hsaves.id]

theorem footprint_of_resets {s : Store} {selector : Option Selector} {propertyId : Option Text}
    {name : Text} {p : Option Property} {w : Edit.Write}
    (h : Edit.Resets s selector propertyId name p w) :
    w.footprint s.collections = footprintOfProperty propertyId p := by
  cases h with
  | starts _ hsets =>
    rw [hsets.write]
    rfl
  | erases heq =>
    subst heq
    rfl
  | nothing heq =>
    subst heq
    rfl

theorem footprint_of_allows [Limits] {s : Service} {op : Operation} {result : Result}
    {w : Edit.Write}
    (h : Allows s op result w) :
    w.footprint s.store.collections = footprint s.store op result := by
  cases h with
  | save h => exact footprint_of_savesAs h
  | saveResource h => exact footprint_of_savesAs h
  | rename h =>
    rw [h.write]
    rfl
  | delete _ _ _ => rfl
  | bind _ _ _ h =>
    rw [h.write]
    rfl
  | setExpression _ _ _ h =>
    rw [h.write]
    rfl
  | blank h => exact footprint_of_resets h
  | removeExpression h => exact footprint_of_resets h

/--
An operation that fails leaves the ledger as it was. One that returns publishes at most one
transaction, which leaves alone what is outside of the footprint; after that the ledger only changes
by what listeners commit.
-/
theorem perform_atomic [Limits] (s : Service) (op : Operation) :
    match op.perform s with
    | (.error _, s') => s'.store.ledger = s.store.ledger
    | (.ok result, s') => ∃ mid : Ledger,
        (mid = s.store.ledger ∨ ∃ t : Transaction, t.Leads s.store.ledger mid) ∧
        s.store.collections.SameOutside (op.footprint s.store result) mid.collections ∧
        ((∀ listener ∈ s.store.listeners, listener.Observes) → s'.store.ledger = mid) ∧
        ((∀ listener ∈ s.store.listeners, listener.Fair) →
          ∃ ts, mid.History ts s'.store.ledger) := by
  have hstore := (performed op s).store
  rcases hperform : op.perform s with ⟨result, s'⟩
  rw [hperform] at hstore
  cases result with
  | error failure => exact hstore.1
  | ok result =>
    obtain ⟨w, hallows, mid, hfollows, hedited, hpublishes⟩ := hstore
    refine ⟨mid.ledger, hedited.once, ?_, ?_, ?_⟩
    . rw [← footprint_of_allows hallows]
      exact hedited.sameOutside (Edit.Write.sameOutside_apply _ w)
    . intro observe
      exact hpublishes.observed (hfollows.observes observe)
    . intro fair
      exact hpublishes.fair (hfollows.fair fair)

end Operation

end PageBinding
