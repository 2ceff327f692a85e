import PageBinding.Proofs.Expression.Refusal
import PageBinding.Usage

/-!
This module contains what the scan of all props finds: what is found in each of their texts alone,
taken together. It fails only where one of the texts alone makes it fail.
-/

namespace PageBinding

namespace Usage

open Traversal

/--
A text refers to the variable with an id. One that cannot be read refers to none.
-/
def Contributes [Limits] (mode : Expression.Mode) (t id : Text) : Prop :=
  ∃ ids, Expression.referencedIds mode t = .ok ids ∧ id ∈ ids

def IsScanned [Limits] (mode : Expression.Mode) (t : Text) : Prop :=
  (∃ ids, Expression.referencedIds mode t = .ok ids) ∨
    ∃ fault place, Expression.referencedIds mode t = .error (.parse fault place)

/--
A text makes the scan fail by an escape in it.
-/
def Breaks [Limits] (mode : Expression.Mode) (t : Text) (failure : Failure) : Prop :=
  Expression.referencedIds mode t = .error failure ∧
    (∃ inKey, failure = .escapeTooLarge inKey) ∧ Expression.Literal.HasOversizedEscape t

section OfText

variable {mode : Expression.Mode} {t : Text}

theorem isScanned_of_ofText [Limits] {ids : List Text} (h : ofText mode t = .ok ids) :
    IsScanned mode t ∧ ∀ id, id ∈ ids ↔ Contributes mode t id := by
  unfold ofText at h
  split at h
  . next found hfound =>
    cases h
    refine ⟨.inl ⟨ids, hfound⟩, fun id => ⟨fun hid => ⟨ids, hfound, hid⟩, ?_⟩⟩
    rintro ⟨_, hids, hid⟩
    rw [hfound] at hids
    cases hids
    exact hid
  . next failure hfailure =>
    split at h
    . next hparse =>
      cases h
      have hnone (id : Text) : ¬ Contributes mode t id := by
        rintro ⟨ids, hids, -⟩
        rw [hfailure] at hids
        cases hids
      cases failure with
      | parse fault place =>
        exact ⟨.inr ⟨fault, place, hfailure⟩, fun id => by simp [hnone id]⟩
      | _ => cases hparse
    . cases h

theorem failsOnly_ofText [Limits] : FailsOnly (Breaks mode t) (ofText mode t) := by
  unfold ofText
  split
  . exact .ok _
  . next failure hfailure =>
    split
    . exact .ok _
    . next hparse =>
      cases Expression.failsOnly_referencedIds mode t failure hfailure with
      | parse fault place => exact absurd rfl hparse
      | escape inKey hescape => exact .error ⟨hfailure, ⟨inKey, rfl⟩, hescape⟩

end OfText

theorem scanned_of_ofEntity [Limits] {effects : Option (List Text)} {p : Property} {ids : List Text}
    (h : ofEntity effects (.property p) = .ok ids) :
    (∀ mode t, (mode, t) ∈ texts effects p → IsScanned mode t) ∧
      ∀ id, id ∈ ids ↔ ∃ mode t, (mode, t) ∈ texts effects p ∧ Contributes mode t id := by
  unfold ofEntity at h
  constructor
  . intro mode t hmem
    obtain ⟨found, hfound, -⟩ := subset_of_mem_of_flatMapM h hmem
    exact (isScanned_of_ofText hfound).1
  . intro id
    rw [mem_flatMapM_iff h]
    constructor
    . rintro ⟨⟨mode, t⟩, hmem, found, hfound, hid⟩
      exact ⟨mode, t, hmem, ((isScanned_of_ofText hfound).2 id).mp hid⟩
    . rintro ⟨mode, t, hmem, hcontributes⟩
      obtain ⟨found, hfound, -⟩ := subset_of_mem_of_flatMapM h hmem
      exact ⟨(mode, t), hmem, found, hfound, ((isScanned_of_ofText hfound).2 id).mpr hcontributes⟩

theorem mem_used_iff [Limits] {effects : Option (List Text)} {props : List Entity} {ids : List Text}
    (h : used effects props = .ok ids) {id : Text} :
    id ∈ ids ↔ ∃ p, .property p ∈ props ∧
      ∃ mode t, (mode, t) ∈ texts effects p ∧ Contributes mode t id := by
  obtain ⟨found, hfound, rfl⟩ := map_eq_ok_iff.mp h
  rw [Text.mem_distinct, mem_flatMapM_iff hfound]
  constructor
  . rintro ⟨entity, hmem, ids, hids, hid⟩
    cases entity with
    | property p => exact ⟨p, hmem, ((scanned_of_ofEntity hids).2 id).mp hid⟩
    | variable_ v =>
      cases hids
      cases hid
    | resource r => cases hids
    | raw value => cases hids
  . rintro ⟨p, hp, hcontributes⟩
    obtain ⟨ids, hids, -⟩ := subset_of_mem_of_flatMapM hfound hp
    exact ⟨.property p, hp, ids, hids, ((scanned_of_ofEntity hids).2 id).mpr hcontributes⟩

theorem failsOnly_ofEntity [Limits] (effects : Option (List Text)) (p : Property) :
    FailsOnly (fun failure => ∃ mode t, (mode, t) ∈ texts effects p ∧ Breaks mode t failure)
      (ofEntity effects (.property p)) := by
  apply FailsOnly.flatMapM
  rintro ⟨mode, t⟩ hmem failure hfailure
  exact ⟨mode, t, hmem, failsOnly_ofText failure hfailure⟩

/--
The scan of some props finds what each of their texts alone refers to, where those that cannot be
read refer to nothing. If it fails, then by an oversized escape in one of the texts.
-/
theorem used_properties [Limits] (effects : Option (List Text)) (props : List Property) :
    match used effects (props.map .property) with
    | .ok ids =>
      (∀ p ∈ props, ∀ mode t, (mode, t) ∈ texts effects p → IsScanned mode t) ∧
        ids.Nodup ∧ ∀ id, id ∈ ids ↔
          ∃ p ∈ props, ∃ mode t, (mode, t) ∈ texts effects p ∧ Contributes mode t id
    | .error failure =>
      ∃ p ∈ props, ∃ mode t, (mode, t) ∈ texts effects p ∧ Breaks mode t failure := by
  split
  . next ids hused =>
    obtain ⟨found, hfound, rfl⟩ := map_eq_ok_iff.mp hused
    have hentity (p : Property) (hp : p ∈ props) :
        ∃ ids, ofEntity effects (.property p) = .ok ids := by
      obtain ⟨ids, hids, -⟩ := subset_of_mem_of_flatMapM hfound (List.mem_map_of_mem hp)
      exact ⟨ids, hids⟩
    refine ⟨?_, Text.nodup_distinct found, ?_⟩
    . intro p hp
      obtain ⟨ids, hids⟩ := hentity p hp
      exact (scanned_of_ofEntity hids).1
    . intro id
      rw [Text.mem_distinct, mem_flatMapM_iff hfound]
      constructor
      . rintro ⟨entity, hmem, ids, hids, hid⟩
        obtain ⟨p, hp, rfl⟩ := List.mem_map.mp hmem
        exact ⟨p, hp, ((scanned_of_ofEntity hids).2 id).mp hid⟩
      . rintro ⟨p, hp, hcontributes⟩
        obtain ⟨ids, hids⟩ := hentity p hp
        exact ⟨.property p, List.mem_map_of_mem hp, ids, hids,
          ((scanned_of_ofEntity hids).2 id).mpr hcontributes⟩
  . next failure hused =>
    have hfails : FailsOnly (fun failure => ∃ p ∈ props, ∃ mode t,
        (mode, t) ∈ texts effects p ∧ Breaks mode t failure)
        (used effects (props.map .property)) := by
      apply FailsOnly.map
      apply FailsOnly.flatMapM
      intro entity hmem reason hreason
      obtain ⟨p, hp, rfl⟩ := List.mem_map.mp hmem
      exact ⟨p, hp, failsOnly_ofEntity effects p reason hreason⟩
    exact hfails failure hused

def oversizedProperty : Property :=
  ⟨"p1", "body", "label", .expression "\"\\u\x7b80000000\x7d\""⟩

theorem used_oversizedProperty :
    used none [.property oversizedProperty] = .error (.escapeTooLarge false) := by
  cbv

theorem not_used_oversizedProperty :
    ¬ ∀ (effects : Option (List Text)) (props : List Property),
      ∃ ids, used effects (props.map .property) = .ok ids ∧ ∀ id, id ∈ ids ↔
        ∃ p ∈ props, ∃ mode t, (mode, t) ∈ texts effects p ∧ Contributes mode t id := by
  intro h
  obtain ⟨ids, hused, -⟩ := h none [oversizedProperty]
  rw [List.map_cons, List.map_nil, used_oversizedProperty] at hused
  cases hused

end Usage

end PageBinding
