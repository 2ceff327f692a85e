import PageBinding.Proofs.Workspace.Run

/-!
This module contains the slots of the props: the instance and the name by which commands look a
prop up. A command creates a prop only in a slot where it has found none, and a prop that is there
keeps its slot, so that no two props ever come to share one.
-/

namespace PageBinding

def Property.slot (q : Property) : Text × Text :=
  (q.instanceId, q.name)

def Command.slot? : Command → Option (Text × Text)
  | .bind instanceId name _ | .expr instanceId name _ _ => some (instanceId, name)
  | .setValue .. | .delete _ | .check | .scope _ | .usage | .eval _ => none

/--
What may happen to some props where only the prop in one slot is changed: it gets another value, or
a new one is added at the end because there is none, or it is removed, or nothing happens.
-/
inductive Property.Touched (slot : Text × Text) : List Property → List Property → Prop where
  | stays (qs : List Property) : Touched slot qs qs
  | becomes {front back : List Property} {q r : Property} : q.slot = slot → r.slot = slot →
      r.id = q.id → Touched slot (front ++ q :: back) (front ++ r :: back)
  | joins {qs : List Property} {r : Property} : r.slot = slot →
      (∀ q ∈ qs, q.slot ≠ slot ∧ q.id ≠ r.id) → Touched slot qs (qs ++ [r])
  | leaves {front back : List Property} {q : Property} : q.slot = slot →
      Touched slot (front ++ q :: back) (front ++ back)

namespace Property.Touched

variable {slot : Text × Text} {before after : List Property}

theorem nodup_slots (h : Touched slot before after) (nodup : (before.map Property.slot).Nodup) :
    (after.map Property.slot).Nodup := by
  cases h with
  | stays _ => exact nodup
  | becomes hq hr _ =>
    rw [List.map_append, List.map_cons] at nodup ⊢
    rwa [hr, ← hq]
  | joins hr hfree =>
    rw [List.map_append, List.map_singleton, List.nodup_append]
    refine ⟨nodup, List.pairwise_singleton _ _, ?_⟩
    intro s hs t ht heq
    obtain ⟨q, hq, rfl⟩ := List.mem_map.mp hs
    rw [List.mem_singleton.mp ht, hr] at heq
    exact (hfree q hq).1 heq
  | @leaves front back q _ =>
    have hsublist : (front ++ back).Sublist (front ++ q :: back) :=
      (List.sublist_cons_self q back).append_left front
    exact nodup.sublist (hsublist.map Property.slot)

theorem slot_eq (h : Touched slot before after) (nodup : (before.map Property.id).Nodup)
    {q r : Property} (hq : q ∈ before) (hr : r ∈ after) (hid : r.id = q.id) : r.slot = q.slot := by
  have hsame : r ∈ before → r.slot = q.slot := by
    intro hmem
    rw [List.inj_on_of_nodup_map nodup hmem hq hid]
  cases h with
  | stays _ => exact hsame hr
  | @becomes front back old new hold hnew hkept =>
    rcases List.mem_append.mp hr with hfront | hrest
    . exact hsame (List.mem_append_left _ hfront)
    . rcases List.mem_cons.mp hrest with rfl | hback
      . have hmem : old ∈ front ++ old :: back :=
          List.mem_append_right _ List.mem_cons_self
        rw [hnew, List.inj_on_of_nodup_map nodup hq hmem (hid.symm.trans hkept), hold]
      . exact hsame (List.mem_append_right _ (List.mem_cons_of_mem _ hback))
  | joins _ hfree =>
    rcases List.mem_append.mp hr with hmem | hnew
    . exact hsame hmem
    . rw [List.mem_singleton] at hnew
      subst hnew
      exact absurd hid.symm (hfree q hq).2
  | leaves _ =>
    rcases List.mem_append.mp hr with hfront | hback
    . exact hsame (List.mem_append_left _ hfront)
    . exact hsame (List.mem_append_right _ (List.mem_cons_of_mem _ hback))

end Property.Touched

namespace Collections

variable {c : Collections} {q r : Property}

theorem propertyList_congr {d : Collections} (h : d.get .props = c.get .props) :
    d.propertyList = c.propertyList :=
  congrArg (fun props : Collection Entity => props.values.filterMap Entity.asProperty?) h

theorem exists_propertyList_split (h : c.Filed) (hq : q ∈ c.propertyList) :
    ∃ front back, c.propertyList = front ++ q :: back ∧
      ({ c with props := c.props.erase q.id } : Collections).propertyList = front ++ back ∧
      ∀ r : Property, r.id = q.id → (c.putProperty r).propertyList = front ++ r :: back := by
  have hprop (r : Property) : Entity.asProperty? (.property r) = some r := rfl
  obtain ⟨front, back, hsplit, herase, hput⟩ :=
    Collection.exists_values_split (h.get?_props_of_mem (mem_propertyList_iff.mp hq))
  refine ⟨front.filterMap Entity.asProperty?, back.filterMap Entity.asProperty?, ?_, ?_, ?_⟩
  . rw [propertyList, hsplit, List.filterMap_append, List.filterMap_cons_some (hprop q)]
  . rw [propertyList, herase, List.filterMap_append]
  . intro r hid
    rw [propertyList, putProperty, hid, hput, List.filterMap_append,
      List.filterMap_cons_some (hprop r)]

theorem propertyList_putProperty_of_fresh (h : c.Filed)
    (hfresh : ∀ q ∈ c.propertyList, q.id ≠ r.id) :
    (c.putProperty r).propertyList = c.propertyList ++ [r] := by
  have hget : c.props.get? r.id = none := by
    cases hget : c.props.get? r.id with
    | none => rfl
    | some entity =>
      obtain ⟨q, rfl, hid⟩ := h .props r.id entity hget
      have hmem : q ∈ c.propertyList :=
        mem_propertyList_iff.mpr (Collection.mem_values_iff.mpr ⟨r.id, hget⟩)
      exact absurd hid (hfresh q hmem)
  rw [propertyList, putProperty, Collection.values_insert_of_get?_eq_none hget,
    List.filterMap_append]
  rfl

end Collections

namespace Workspace

variable {w : Workspace} {instanceId name : Text}

theorem slot_of_propertyOf? {q : Property} (h : w.propertyOf? instanceId name = some q) :
    q ∈ w.service.store.collections.propertyList ∧ q.slot = (instanceId, name) := by
  obtain ⟨hmem, rfl, rfl⟩ := propertyOf?_spec h
  exact ⟨hmem, rfl⟩

theorem slot_ne_of_propertyOf? (h : w.propertyOf? instanceId name = none) :
    ∀ q ∈ w.service.store.collections.propertyList, q.slot ≠ (instanceId, name) := by
  intro q hq hslot
  have hother := List.find?_eq_none.mp h q hq
  simp only [Bool.and_eq_true, decide_eq_true_eq, not_and] at hother
  exact hother (congrArg Prod.fst hslot) (congrArg Prod.snd hslot)

structure Fresh (w : Workspace) : Prop where
  filed : w.service.store.collections.Filed
  id : ∀ q ∈ w.service.store.collections.propertyList, q.id ≠ w.service.store.takeId.1

theorem touched_of_sets (h : w.Fresh) {selector : Selector}
    (hselector : w.project.selector instanceId = .ok selector) {value : PropertyValue}
    {q : Property} {write : Edit.Write}
    (hsets : Edit.Sets w.service.store (some selector)
      ((w.propertyOf? instanceId name).map Property.id) name value q write) :
    Property.Touched (instanceId, name) w.service.store.collections.propertyList
      (write.apply w.service.store.collections).propertyList := by
  obtain ⟨ancestors, rfl⟩ := Project.selector_eq_cons hselector
  obtain ⟨rfl, -, selected, hselected, hplace⟩ := hsets
  cases hselected
  cases hfound : w.propertyOf? instanceId name with
  | some found =>
    -- What has been found is stored under its id, so that no second prop is created beside it.
    obtain ⟨hmem, hslot⟩ := slot_of_propertyOf? hfound
    have hstored := Edit.existingProperty_eq_ok h.filed hmem
    rcases hplace with ⟨existing, id, hid, hexisting, rfl⟩ | ⟨hnone, -⟩
    . rw [hfound] at hid
      cases hid
      rw [hstored] at hexisting
      cases hexisting
      obtain ⟨front, back, hsplit, -, hput⟩ := Collections.exists_propertyList_split h.filed hmem
      have hafter := hput { found with value } rfl
      rw [hsplit, Edit.Write.apply, hafter]
      exact .becomes hslot hslot rfl
    . rw [hnone found.id (by rw [hfound]; rfl)] at hstored
      cases hstored
  | none =>
    rcases hplace with ⟨existing, id, hid, -⟩ | ⟨-, rfl⟩
    . rw [hfound] at hid
      cases hid
    . rw [Edit.Write.apply, Collections.propertyList_putProperty_of_fresh h.filed h.id]
      exact .joins rfl fun q hq => ⟨slot_ne_of_propertyOf? hfound q hq, h.id q hq⟩

theorem names_of_sets {s : Store} {selector : Option Selector} {propertyId : Option Text}
    {value : PropertyValue} {q : Property} {write : Edit.Write}
    (hsets : Edit.Sets s selector propertyId name value q write) :
    ∀ name ∈ write.names, name = .props := by
  rw [hsets.write]
  exact fun _ => List.mem_singleton.mp

theorem touched_of_resets (h : w.Fresh) {selector : Selector}
    (hselector : w.project.selector instanceId = .ok selector) {q : Option Property}
    {write : Edit.Write}
    (hresets : Edit.Resets w.service.store (some selector)
      ((w.propertyOf? instanceId name).map Property.id) name q write) :
    Property.Touched (instanceId, name) w.service.store.collections.propertyList
      (write.apply w.service.store.collections).propertyList := by
  cases hresets with
  | starts _ hsets => exact touched_of_sets h hselector hsets
  | erases hid =>
    obtain ⟨found, hfound, rfl⟩ := Option.map_eq_some_iff.mp hid
    obtain ⟨hmem, hslot⟩ := slot_of_propertyOf? hfound
    obtain ⟨front, back, hsplit, herase, -⟩ := Collections.exists_propertyList_split h.filed hmem
    rw [hsplit, Edit.Write.apply, herase]
    exact .leaves hslot
  | nothing _ => exact .stays _

theorem touched_of_allows [Limits] (h : w.Fresh) {command : Command} {slot : Text × Text}
    (hslot : command.slot? = some slot) {op : Operation} (hasks : w.Asks command op)
    {result : Operation.Result} {write : Edit.Write}
    (hallows : Operation.Allows w.service op result write) :
    (∀ name ∈ write.names, name = .props) ∧
      Property.Touched slot w.service.store.collections.propertyList
        (write.apply w.service.store.collections).propertyList := by
  cases hasks with
  | setValue _ _ => cases hslot
  | delete variableId => cases hslot
  | bind _ hselector =>
    cases hslot
    cases hallows with
    | bind _ _ _ hsets =>
      exact ⟨names_of_sets hsets, touched_of_sets h hselector hsets⟩
  | expr text type hselector =>
    cases hslot
    cases hallows with
    | setExpression _ _ _ hsets =>
      exact ⟨names_of_sets hsets, touched_of_sets h hselector hsets⟩
    | blank hresets =>
      refine ⟨?_, touched_of_resets h hselector hresets⟩
      cases hresets with
      | starts _ hsets => exact names_of_sets hsets
      | erases _ => exact fun _ => List.mem_singleton.mp
      | nothing _ => exact nofun

theorem not_mem_names_of_allows [Limits] {command : Command} (hslot : command.slot? = none)
    {op : Operation}
    (hasks : w.Asks command op) {result : Operation.Result} {write : Edit.Write}
    (hallows : Operation.Allows w.service op result write) : .props ∉ write.names := by
  cases hasks with
  | setValue _ _ =>
    cases hallows with
    | save hsaves =>
      unfold Edit.SavesAs at hsaves
      split at hsaves
      . rw [hsaves.write]
        simp [Edit.Write.names]
      . obtain ⟨-, -, rfl⟩ := hsaves
        simp [Edit.Write.names]
  | delete variableId =>
    cases hallows
    simp [Edit.Write.names]
  | bind _ _ => cases hslot
  | expr _ _ _ => cases hslot

end Workspace

structure Project.Touched (slot : Text × Text) (p p' : Project) : Prop where
  rest : p' = { p with props := p'.props }
  props : Property.Touched slot p.props p'.props

namespace Project

variable {p : Project} {settings : Settings} {supplies : IdSupplies} {command : Command}

theorem fresh_ofProject (accepted : p.conflict? = none)
    (fresh : ∀ q ∈ p.props, q.id ≠ supplies.entities.take.1) :
    (Workspace.ofProject p settings supplies).Fresh := by
  refine ⟨p.filed_toCollections, ?_⟩
  have hprops : (Workspace.ofProject p settings supplies).service.store.collections.propertyList =
      p.props := (lists_toCollections accepted).2
  rw [hprops]
  exact fresh

theorem after_cases [Limits] (accepted : p.conflict? = none) (settings : Settings)
    (supplies : IdSupplies)
    (command : Command) :
    (Workspace.ofProject p settings supplies).after command = p ∨
      ∃ op result write c, (Workspace.ofProject p settings supplies).Asks command op ∧
        Operation.Allows (Workspace.ofProject p settings supplies).service op result write ∧
        (∀ name, c.get name = p.toCollections.get name ∨
          name ∈ write.names ∧ c.get name = (write.apply p.toCollections).get name) ∧
        (p.withCollections c).conflict? = none ∧
        (Workspace.ofProject p settings supplies).after command = p.withCollections c := by
  unfold Workspace.after
  split
  . next service hedit =>
    obtain ⟨op, result, hasks, hperform⟩ := Workspace.asks_of_edit? hedit
    have hperformed := Operation.performed op (Workspace.ofProject p settings supplies).service
    have hplaced : Service.Placed p (Workspace.ofProject p settings supplies).service :=
      ⟨placed_toCollections accepted, rfl, fun _ hmem => absurd hmem List.not_mem_nil⟩
    have hafter := Operation.placed_perform hplaced op
    rw [hperform] at hperformed hafter
    obtain ⟨write, hallows, hedited⟩ := hperformed.store
    refine .inr ⟨op, result, write, service.store.collections, hasks, hallows, ?_, ?_, rfl⟩
    . intro name
      rcases (hedited.ledger hplaced.observe).each name with ⟨hsame, -⟩ | ⟨hname, htaken, -⟩
      . exact .inl hsame
      . exact .inr ⟨hname, htaken⟩
    . exact conflict?_withCollections accepted hafter.collections.filed hafter.collections.scopes
  . exact .inl rfl

theorem conflict?_after [Limits] (accepted : p.conflict? = none) :
    ((Workspace.ofProject p settings supplies).after command).conflict? = none := by
  rcases after_cases accepted settings supplies command with
    hsame | ⟨_, _, _, c, -, -, -, hc, heq⟩
  . rw [hsame]
    exact accepted
  . rw [heq]
    exact hc

theorem touched_after [Limits] (accepted : p.conflict? = none)
    (fresh : ∀ q ∈ p.props, q.id ≠ supplies.entities.take.1) {slot : Text × Text}
    (hslot : command.slot? = some slot) :
    p.Touched slot ((Workspace.ofProject p settings supplies).after command) := by
  rcases after_cases accepted settings supplies command with
    hsame | ⟨op, result, write, c, hasks, hallows, heach, -, heq⟩
  . rw [hsame]
    exact ⟨rfl, .stays _⟩
  obtain ⟨hnames, htouched⟩ :=
    Workspace.touched_of_allows (fresh_ofProject accepted fresh) hslot hasks hallows
  have hkept (name : CollectionName) (hname : name ≠ .props) :
      c.get name = p.toCollections.get name := by
    rcases heach name with hsame | ⟨hmem, -⟩
    . exact hsame
    . exact absurd (hnames name hmem) hname
  -- The collections of an accepted project make the same project again, so those that are kept
  -- leave the rest of it as it was.
  have hvars : c.vars = p.toCollections.vars := hkept .vars (by decide)
  have hresources : c.resources = p.toCollections.resources := hkept .resources (by decide)
  have hwhole := withCollections_toCollections accepted
  rw [heq]
  constructor
  . rw [withCollections, Collections.variableList, hvars, hresources]
    exact congrArg (fun whole : Project => { whole with props := c.propertyList }) hwhole
  . have hprops : p.toCollections.propertyList = p.props := (lists_toCollections accepted).2
    rw [← hprops]
    rcases heach .props with hsame | ⟨-, htaken⟩
    . rw [withCollections, Collections.propertyList_congr hsame]
      exact .stays _
    . rw [withCollections, Collections.propertyList_congr htaken]
      exact htouched

theorem props_after [Limits] (accepted : p.conflict? = none) (hslot : command.slot? = none) :
    ((Workspace.ofProject p settings supplies).after command).props = p.props := by
  rcases after_cases accepted settings supplies command with
    hsame | ⟨op, result, write, c, hasks, hallows, heach, -, heq⟩
  . rw [hsame]
  . rw [heq, ← (lists_toCollections accepted).2]
    rcases heach .props with hsame | ⟨hname, -⟩
    . exact Collections.propertyList_congr hsame
    . exact absurd hname (Workspace.not_mem_names_of_allows hslot hasks hallows)

theorem props_after_cases [Limits] (accepted : p.conflict? = none)
    (fresh : ∀ q ∈ p.props, q.id ≠ supplies.entities.take.1) :
    ∃ slot, Property.Touched slot p.props
      ((Workspace.ofProject p settings supplies).after command).props := by
  cases hslot : command.slot? with
  | none =>
    refine ⟨([], []), ?_⟩
    rw [props_after accepted hslot]
    exact .stays _
  | some slot => exact ⟨slot, (touched_after accepted fresh hslot).props⟩

def stage [Limits] (settings : Settings) (p : Project) (invocations : List Invocation) (i : Nat) :
    Project :=
  p.afterAll settings (invocations.take i)

/--
The next fresh id is the id of no prop, whenever a command is given.
-/
def FindsFresh [Limits] (settings : Settings) (p : Project) (invocations : List Invocation) :
    Prop :=
  ∀ i command supplies, invocations[i]? = some ⟨command, supplies⟩ →
    ∀ q ∈ (p.stage settings invocations i).props, q.id ≠ supplies.entities.take.1

variable {invocations : List Invocation} {i : Nat}

theorem stage_succ [Limits] (h : invocations[i]? = some ⟨command, supplies⟩) :
    p.stage settings invocations (i + 1) =
      (Workspace.ofProject (p.stage settings invocations i) settings supplies).after command := by
  rw [stage, List.take_add_one, h, afterAll, List.foldl_append]
  rfl

theorem stage_succ_of_eq_none [Limits] (h : invocations[i]? = none) :
    p.stage settings invocations (i + 1) = p.stage settings invocations i := by
  rw [stage, List.take_add_one, h, Option.toList_none, List.append_nil]
  rfl

theorem touched_stage_succ [Limits] (accepted : (p.stage settings invocations i).conflict? = none)
    (fresh : p.FindsFresh settings invocations) :
    (p.stage settings invocations (i + 1)).conflict? = none ∧
      ∃ slot, Property.Touched slot (p.stage settings invocations i).props
        (p.stage settings invocations (i + 1)).props := by
  cases h : invocations[i]? with
  | none =>
    rw [stage_succ_of_eq_none h]
    exact ⟨accepted, ([], []), .stays _⟩
  | some invocation =>
    rw [stage_succ h]
    exact ⟨conflict?_after accepted, props_after_cases accepted (fresh i _ _ h)⟩

theorem distinct_stage [Limits] (accepted : p.conflict? = none)
    (distinct : (p.props.map Property.slot).Nodup)
    (fresh : p.FindsFresh settings invocations) (i : Nat) :
    (p.stage settings invocations i).conflict? = none ∧
      ((p.stage settings invocations i).props.map Property.slot).Nodup := by
  induction i with
  | zero => exact ⟨accepted, distinct⟩
  | succ i ih =>
    obtain ⟨hnext, slot, htouched⟩ := touched_stage_succ ih.1 fresh
    exact ⟨hnext, htouched.nodup_slots ih.2⟩

theorem slot_stage [Limits] (accepted : p.conflict? = none)
    (distinct : (p.props.map Property.slot).Nodup)
    (fresh : p.FindsFresh settings invocations) {q : Property}
    (hq : q ∈ (p.stage settings invocations i).props) (n : Nat)
    (hexists : ∀ k, i ≤ k → k ≤ i + n → ∃ r ∈ (p.stage settings invocations k).props, r.id = q.id) :
    ∃ r ∈ (p.stage settings invocations (i + n)).props, r.id = q.id ∧ r.slot = q.slot := by
  induction n with
  | zero => exact ⟨q, hq, rfl, rfl⟩
  | succ n ih =>
    obtain ⟨r, hr, hid, hslot⟩ := ih fun k hi hk => hexists k hi (by omega)
    obtain ⟨next, hnext, hnextId⟩ := hexists (i + n + 1) (by omega) (by omega)
    have hstage := (distinct_stage accepted distinct fresh (i + n)).1
    obtain ⟨-, slot, htouched⟩ := touched_stage_succ hstage fresh
    obtain ⟨⟨-, -, -, hids⟩, -⟩ := conflict?_eq_none_iff.mp hstage
    refine ⟨next, hnext, hnextId, ?_⟩
    rw [htouched.slot_eq hids hr hnext (hnextId.trans hid.symm), hslot]

/--
Where no two props of an accepted project share a slot, no two do after any commands. A prop keeps
its slot for as long as it is there, and a command that is given a prop touches nothing but at most
the one prop in that slot; any other command touches no prop.
-/
theorem stages_keep_slots [Limits] (p : Project) (settings : Settings)
    (invocations : List Invocation)
    (accepted : p.conflict? = none) (distinct : (p.props.map Property.slot).Nodup)
    (fresh : p.FindsFresh settings invocations) (i : Nat) :
    ((p.stage settings invocations i).props.map Property.slot).Nodup ∧
    (∀ q ∈ (p.stage settings invocations i).props, ∀ j ≥ i,
      (∀ k, i ≤ k → k ≤ j → ∃ r ∈ (p.stage settings invocations k).props, r.id = q.id) →
        ∃ r ∈ (p.stage settings invocations j).props, r.id = q.id ∧ r.slot = q.slot) ∧
    ∀ command supplies, invocations[i]? = some ⟨command, supplies⟩ →
      match command.slot? with
      | some slot => (p.stage settings invocations i).Touched slot
          (p.stage settings invocations (i + 1))
      | none => (p.stage settings invocations (i + 1)).props =
          (p.stage settings invocations i).props := by
  obtain ⟨hstage, hdistinct⟩ := distinct_stage accepted distinct fresh i
  refine ⟨hdistinct, ?_, ?_⟩
  . intro q hq j hj hexists
    obtain ⟨n, rfl⟩ := Nat.exists_eq_add_of_le hj
    exact slot_stage accepted distinct fresh hq n hexists
  . intro command supplies hcommand
    rw [stage_succ hcommand]
    split
    . next slot hslot => exact touched_after hstage (fresh i command supplies hcommand) hslot
    . next hslot => exact props_after hstage hslot

/--
The label is removed after another prop has been bound to the same variable, which a second binding
finds again.
-/
def relabelling : List Invocation := [
  ⟨.bind "root" "caption" "title", ⟨"p", 1⟩, ⟨"t", 0⟩⟩,
  ⟨.expr "root" "label" "" none, ⟨"p", 2⟩, ⟨"t", 1⟩⟩,
  ⟨.bind "root" "caption" "title", ⟨"p", 2⟩, ⟨"t", 2⟩⟩]

theorem findsFresh_relabelling : Operation.boundProject.FindsFresh .default relabelling := by
  have hids : ∀ i < 3,
      ∀ q ∈ (Operation.boundProject.stage .default relabelling i).props, q.id ≠ "p3" ∧
        (i = 0 → q.id ≠ "p2") := by
    decide +kernel
  intro i command supplies h q hq
  match i with
  | 0 =>
    cases h
    exact (hids 0 (by decide) q hq).2 rfl
  | 1 =>
    cases h
    exact (hids 1 (by decide) q hq).1
  | 2 =>
    cases h
    exact (hids 2 (by decide) q hq).1
  | i + 3 => cases h

theorem stages_keep_slots_relabelling :
    Operation.boundProject.conflict? = none ∧
      (Operation.boundProject.props.map Property.slot).Nodup ∧
      Operation.boundProject.FindsFresh .default relabelling ∧
      ((Operation.boundProject.stage .default relabelling 3).props.map Property.slot).Nodup ∧
      (Operation.boundProject.stage .default relabelling 1).Touched ("root", "label")
        (Operation.boundProject.stage .default relabelling 2) := by
  have haccepted : Operation.boundProject.conflict? = none := by decide
  have hdistinct : (Operation.boundProject.props.map Property.slot).Nodup := by decide
  refine ⟨haccepted, hdistinct, findsFresh_relabelling, ?_, ?_⟩
  . exact (stages_keep_slots _ .default _ haccepted hdistinct findsFresh_relabelling 3).1
  . exact (stages_keep_slots _ .default _ haccepted hdistinct findsFresh_relabelling 1).2.2 _ _ rfl

end Project

end PageBinding
