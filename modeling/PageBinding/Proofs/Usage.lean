import PageBinding.Proofs.Expression.Names
import PageBinding.Usage

/-!
This module contains which variables the props refer to, and that the tracker is never wrong about
them: what it remembers is only used as long as the props are those that it has been found in.
-/

namespace PageBinding

variable [Limits]

namespace Usage

def Refers (effects : List Text) (p : Property) (id : Text) : Prop :=
  ∃ mode t, (mode, t) ∈ texts (some effects) p ∧
    ∃ ids, Expression.referencedIds mode t = .ok ids ∧ id ∈ ids

theorem mem_used {effects : List Text} {props : List Entity} {ids : List Text}
    (h : used (some effects) props = .ok ids) {p : Property} (hp : .property p ∈ props) {id : Text}
    (hrefers : Refers effects p id) : id ∈ ids := by
  obtain ⟨found, hfound, rfl⟩ := Traversal.map_eq_ok_iff.mp h
  rw [Text.mem_distinct]
  obtain ⟨ofProp, hofProp, hsubset⟩ := Traversal.subset_of_mem_of_flatMapM hfound hp
  obtain ⟨mode, t, htext, referenced, hreferenced, hmem⟩ := hrefers
  obtain ⟨ofOne, hofOne, hsubset'⟩ := Traversal.subset_of_mem_of_flatMapM hofProp htext
  simp only [ofText, hreferenced, Except.ok.injEq] at hofOne
  subst hofOne
  exact hsubset id (hsubset' id hmem)

end Usage

namespace Tracker

/--
What a tracker remembers is not newer than the props of a store, and if it is not older either, it
is what these props refer to.
-/
def Current (t : Tracker) (s : Store) : Prop :=
  ∀ version, t.version = some version → version ≤ s.versions.props ∧
    (version = s.versions.props →
      Usage.used t.effects s.collections.props.values = .ok t.remembered)

variable {t : Tracker} {s s' : Store}

theorem current_new (effects : Option (List Text)) (s : Store) :
    (new effects).Current s := by
  intro version h
  cases h

theorem used_eq (h : t.Current s) :
    (t.used s).1 = Usage.used t.effects s.collections.props.values := by
  unfold used
  split
  . next heq => exact ((h _ heq).2 rfl).symm
  . cases hused : Usage.used t.effects s.collections.props.values with
    | ok ids => rfl
    | error failure => rfl

theorem current_used (h : t.Current s) :
    (t.used s).2.Current s ∧ (t.used s).2.effects = t.effects := by
  unfold used
  split
  . exact ⟨h, rfl⟩
  . cases hused : Usage.used t.effects s.collections.props.values with
    | ok ids =>
      refine ⟨?_, rfl⟩
      intro version heq
      cases heq
      exact ⟨Nat.le_refl _, fun _ => hused⟩
    | error failure => exact ⟨h, rfl⟩

theorem Current.step (h : t.Current s)
    (hstep : s'.collections.props = s.collections.props ∧ s'.versions.props = s.versions.props ∨
      s.versions.props < s'.versions.props) : t.Current s' := by
  intro version hversion
  obtain ⟨hle, hused⟩ := h version hversion
  rcases hstep with ⟨hprops, heq⟩ | hlt
  . rw [hprops, heq]
    exact ⟨hle, hused⟩
  . refine ⟨by omega, ?_⟩
    intro heq
    omega

end Tracker

end PageBinding
