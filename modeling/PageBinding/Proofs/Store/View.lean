import PageBinding.Proofs.Collection
import PageBinding.Proofs.Store.Agreement
import PageBinding.Store.View

/-!
This module contains what the changes of a view say: they list each key once under which the view
differs from what it was, with what was there and what is there now, and no other keys.
-/

namespace PageBinding

/--
What is under a key has departed from what was there: one of the two is missing, or they are not
worth the same.
-/
def Departs (before after : Option Entity) : Prop :=
  match before, after with
  | none, none => False
  | some before, some after => after.agrees before = false
  | _, _ => True

def Stays (before after : Option Entity) : Prop :=
  match before, after with
  | none, none => True
  | some before, some after => after.CountsAs before
  | _, _ => False

theorem Stays.refl (entity : Option Entity) : Stays entity entity := by
  cases entity with
  | none => trivial
  | some entity => exact Entity.CountsAs.refl entity

theorem Stays.trans {a b c : Option Entity} (hab : Stays a b) (hbc : Stays b c) : Stays a c := by
  cases a <;> cases b <;> cases c <;> simp only [Stays] at *
  exact hbc.trans hab

namespace View

def Differs (v : View) (key : Text) : Prop :=
  match v.base.get? key, v.staged.get? key with
  | none, none => False
  | some before, some after => v.isUnchanged key before after = false
  | _, _ => True

theorem departs_of_differs {v : View} {key : Text} (h : v.Differs key) :
    Departs (v.base.get? key) (v.staged.get? key) := by
  unfold Differs at h
  unfold Departs
  cases hb : v.base.get? key with
  | none => cases ha : v.staged.get? key <;> simp_all
  | some before =>
    cases ha : v.staged.get? key with
    | none => trivial
    | some after =>
      simp only [hb, ha, isUnchanged, Bool.or_eq_false_iff] at h
      exact h.1

theorem stays_of_not_differs {v : View} {key : Text} (h : ¬ v.Differs key) :
    Stays (v.base.get? key) (v.staged.get? key) := by
  unfold Differs at h
  unfold Stays
  cases hb : v.base.get? key with
  | none => cases ha : v.staged.get? key <;> simp_all
  | some before =>
    cases ha : v.staged.get? key with
    | none => simp [hb, ha] at h
    | some after =>
      simp only [hb, ha, Bool.not_eq_false, isUnchanged, Entity.remains, Bool.or_eq_true,
        Bool.and_eq_true, decide_eq_true_eq] at h
      rcases h with hagrees | ⟨-, heq, -⟩
      . exact .inl hagrees
      . exact .inr heq

/--
An entity that has been put back is no change, even where it holds a value that is not a number. It
must not be one.
-/
theorem differs_restore_iff {v : View} {key : Text} {entity : Entity}
    (h : v.base.get? key = some entity) :
    (v.restore key).Differs key ↔ entity = .raw (.number (.float .nan)) := by
  simp only [Differs, restore, h, Collection.get?_insert, if_true, isUnchanged, Entity.remains]
  constructor
  . intro hdiffers
    have hsame : entity.agrees entity = false ∧ entity = .raw (.number (.float .nan)) := by
      simpa using hdiffers
    exact hsame.2
  . rintro rfl
    have hnan : Entity.agrees (.raw (.number (.float .nan))) (.raw (.number (.float .nan))) =
        false := by
      cbv
    simp [hnan]

theorem changeOf?_eq_some_iff {v : View} {key : Text} {before : Entity} {change : Change}
    (hbefore : v.base.get? key = some before) :
    v.changeOf? key before = some change ↔
      change = ⟨v.name, key, some before, v.staged.get? key⟩ ∧ v.Differs key := by
  unfold changeOf? Differs
  cases hafter : v.staged.get? key with
  | none => simp [hbefore, eq_comm]
  | some after =>
    cases hunchanged : v.isUnchanged key before after with
    | true => simp [hbefore, hunchanged]
    | false => simp [hbefore, hunchanged, eq_comm]

theorem mem_known_iff {v : View} {change : Change} :
    (change ∈ v.base.entries.filterMap fun (key, before) => v.changeOf? key before) ↔
      (change = ⟨v.name, change.key, v.base.get? change.key, v.staged.get? change.key⟩ ∧
        v.Differs change.key) ∧ v.base.get? change.key ≠ none := by
  rw [List.mem_filterMap]
  constructor
  . rintro ⟨⟨key, before⟩, hmem, hchange⟩
    rw [Collection.mem_entries_iff] at hmem
    obtain ⟨rfl, hdiffers⟩ := (changeOf?_eq_some_iff hmem).mp hchange
    simp only [hmem]
    exact ⟨⟨trivial, hdiffers⟩, by simp⟩
  . rintro ⟨⟨heq, hdiffers⟩, hne⟩
    obtain ⟨before, hbase⟩ := Option.ne_none_iff_exists'.mp hne
    refine ⟨(change.key, before), Collection.mem_entries_iff.mpr hbase, ?_⟩
    rw [changeOf?_eq_some_iff hbase, ← hbase]
    exact ⟨heq, hdiffers⟩

theorem mem_added_iff {v : View} {change : Change} :
    (change ∈ v.staged.entries.filterMap fun (key, after) =>
        if v.base.contains key then none else some ⟨v.name, key, none, some after⟩) ↔
      (change = ⟨v.name, change.key, v.base.get? change.key, v.staged.get? change.key⟩ ∧
        v.Differs change.key) ∧ v.base.get? change.key = none := by
  simp only [List.mem_filterMap, Option.ite_none_left_eq_some, Bool.not_eq_true,
    Option.some.injEq, Collection.contains_eq_false_iff]
  constructor
  . rintro ⟨⟨key, after⟩, hmem, hbase, rfl⟩
    rw [Collection.mem_entries_iff] at hmem
    simp [Differs, hbase, hmem]
  . rintro ⟨⟨heq, hdiffers⟩, hbase⟩
    cases hstaged : v.staged.get? change.key with
    | none => simp [Differs, hbase, hstaged] at hdiffers
    | some after =>
      refine ⟨(change.key, after), Collection.mem_entries_iff.mpr hstaged, hbase, ?_⟩
      rw [heq]
      simp [hbase, hstaged]

theorem mem_changes_iff {v : View} {change : Change} :
    change ∈ v.changes ↔
      change = ⟨v.name, change.key, v.base.get? change.key, v.staged.get? change.key⟩ ∧
        v.Differs change.key := by
  rw [changes, List.mem_append, mem_known_iff, mem_added_iff, ← and_or_left]
  exact and_iff_left (Decidable.em _).symm

theorem changes_eq_nil_iff {v : View} : v.changes = [] ↔ ∀ key, ¬ v.Differs key := by
  rw [List.eq_nil_iff_forall_not_mem]
  constructor
  . intro h key hdiffers
    exact h ⟨v.name, key, v.base.get? key, v.staged.get? key⟩ (mem_changes_iff.mpr ⟨rfl, hdiffers⟩)
  . intro h change hmem
    exact h change.key (mem_changes_iff.mp hmem).2

theorem collection_of_mem_changes {v : View} {change : Change} (h : change ∈ v.changes) :
    change.collection = v.name := by
  rw [(mem_changes_iff.mp h).1]

theorem keys_filterMap_sublist {α : Type} {entries : List (Text × α)} {f : Text × α → Option Change}
    (hf : ∀ entry change, f entry = some change → change.key = entry.1) :
    ((entries.filterMap f).map Change.key).Sublist (Entries.keys entries) := by
  induction entries with
  | nil => simp [Entries.keys]
  | cons entry rest ih =>
    cases h : f entry with
    | none =>
      rw [List.filterMap_cons_none h]
      exact ih.cons _
    | some change =>
      rw [List.filterMap_cons_some h, List.map_cons, hf entry change h]
      exact ih.cons_cons _

theorem nodup_keys_changes (v : View) : (v.changes.map Change.key).Nodup := by
  unfold changes
  rw [List.map_append, List.nodup_append]
  refine ⟨?_, ?_, ?_⟩
  . refine List.Nodup.sublist (keys_filterMap_sublist ?_) v.base.nodup
    rintro ⟨key, before⟩ change (h : v.changeOf? key before = some change)
    unfold changeOf? at h
    split at h
    . cases h
      rfl
    . rw [Option.ite_none_left_eq_some, Option.some.injEq] at h
      rw [← h.2]
  . refine List.Nodup.sublist (keys_filterMap_sublist ?_) v.staged.nodup
    rintro ⟨key, after⟩ change h
    simp only [Option.ite_none_left_eq_some, Option.some.injEq] at h
    rw [← h.2]
  . -- A key of the first part was there when the transaction began, one of the second was not.
    intro key hknown other hadded heq
    subst heq
    obtain ⟨change, hmem, rfl⟩ := List.mem_map.mp hknown
    obtain ⟨other, hmem', heq⟩ := List.mem_map.mp hadded
    have hbase := (mem_added_iff.mp hmem').2
    rw [heq] at hbase
    exact (mem_known_iff.mp hmem).2 hbase

def origin (v : View) : CollectionName × Collection Entity :=
  (v.name, v.base)

@[simp]
theorem origin_set (v : View) (key : Text) (entity : Entity) :
    (v.set key entity).origin = v.origin :=
  rfl

@[simp]
theorem origin_restore (v : View) (key : Text) : (v.restore key).origin = v.origin := by
  unfold restore
  split <;> rfl

@[simp]
theorem origin_erase (v : View) (key : Text) : (v.erase key).origin = v.origin :=
  rfl

@[simp]
theorem origin_clear (v : View) : v.clear.origin = v.origin :=
  rfl

@[simp]
theorem origin_getOrSet (v : View) (key : Text) (entity : Entity) :
    (v.getOrSet key entity).2.origin = v.origin := by
  unfold getOrSet
  split <;> rfl

@[simp]
theorem origin_setAll (v : View) (pairs : List (Text × Entity)) :
    (v.setAll pairs).origin = v.origin := by
  unfold setAll
  induction pairs generalizing v with
  | nil => rfl
  | cons pair rest ih => rw [List.foldl_cons, ih, origin_set]

theorem origin_of_pop {v w : View} {key : Text} {default : Option Entity} {entity : Entity}
    (h : v.pop key default = .ok (entity, w)) : w.origin = v.origin := by
  unfold pop at h
  split at h
  . cases h
    rfl
  . cases h
    rfl
  . cases h

theorem origin_of_popFirst {v w : View} {entry : Text × Entity}
    (h : v.popFirst = .ok (entry, w)) : w.origin = v.origin := by
  unfold popFirst at h
  split at h
  . cases h
  . cases h
    rfl

end View

end PageBinding
