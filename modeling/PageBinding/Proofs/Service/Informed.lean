import PageBinding.Proofs.Edit.Written
import PageBinding.Proofs.Service.Operation
import PageBinding.Proofs.Usage

/-!
This module contains services whose tracker is right about the used variables of a store in which
everything is filed where it belongs. No operation changes that.
-/

namespace PageBinding

/--
Everything in the store is filed where it belongs, the tracker is right about it, and nothing but
the operations writes to it.
-/
structure Service.Informed [Limits] (effects : List Text) (s : Service) : Prop where
  filed : s.store.collections.Filed
  allowed : s.tracker.effects = some effects
  current : s.tracker.Current s.store
  observe : ∀ listener ∈ s.store.listeners, listener.Observes

variable {effects : List Text} {s : Service}

namespace Service

theorem informed_new [Limits] (p : Project) (settings : Settings) (ids transactionIds : IdSupply)
    {listeners : List Listener} (observe : ∀ listener ∈ listeners, listener.Observes) :
    (new { p.toStore ids transactionIds with listeners } settings).Informed settings.effects :=
  ⟨p.filed_toCollections, rfl, Tracker.current_new _ _, observe⟩

theorem Informed.asked [Limits] {tracker : Tracker} (h : s.Informed effects)
    (htracker : tracker = s.tracker ∨ tracker = (s.tracker.used s.store).2) :
    tracker.effects = some effects ∧ tracker.Current s.store := by
  rcases htracker with rfl | rfl
  . exact ⟨h.allowed, h.current⟩
  . obtain ⟨hcurrent, heffects⟩ := Tracker.current_used h.current
    exact ⟨heffects.trans h.allowed, hcurrent⟩

end Service

namespace Operation

theorem isFiled_of_savesAs (h : s.store.collections.Filed) {selector : Option Selector}
    {v : Option Variable} {name : Text} {content : Content → Prop} {resource : Option Resource}
    {saved : Variable} {w : Edit.Write}
    (hsaves : Edit.SavesAs s.store selector v name content resource saved w) : w.IsFiled := by
  unfold Edit.SavesAs at hsaves
  split at hsaves
  . exact h.existing hsaves
  . rw [hsaves.2.2]
    trivial

theorem isFiled_of_resets {selector : Option Selector} {propertyId : Option Text} {name : Text}
    {p : Option Property} {w : Edit.Write}
    (h : Edit.Resets s.store selector propertyId name p w) : w.IsFiled := by
  cases h with
  | starts _ hsets =>
    rw [hsets.write]
    trivial
  | erases _ => trivial
  | nothing _ => trivial

variable [Limits]

theorem isFiled_of_allows (h : s.store.collections.Filed) {op : Operation}
    {result : Result}
    {w : Edit.Write} (hallows : Allows s op result w) : w.IsFiled := by
  cases hallows with
  | save hsaves => exact isFiled_of_savesAs h hsaves
  | saveResource hsaves => exact isFiled_of_savesAs h hsaves
  | rename hrenames => exact h.existing hrenames
  | delete _ _ _ => trivial
  | bind _ _ _ hsets =>
    rw [hsets.write]
    trivial
  | setExpression _ _ _ hsets =>
    rw [hsets.write]
    trivial
  | blank hresets => exact isFiled_of_resets hresets
  | removeExpression hresets => exact isFiled_of_resets hresets

theorem informed_perform (h : s.Informed effects) (op : Operation) :
    (op.perform s).2.Informed effects := by
  have hperformed := performed op s
  have hasked := h.asked hperformed.tracker
  obtain ⟨w, hallows, hedited⟩ := hperformed.edited h.observe
  have hfiled : w.IsFiled := by
    rcases hallows with rfl | ⟨result, hallows⟩
    . trivial
    . exact isFiled_of_allows h.filed hallows
  constructor
  . exact hedited.filed h.filed (Edit.Write.filed_apply h.filed hfiled)
  . exact hasked.1
  . rcases hedited.each .props with hsame | ⟨-, -, hversion⟩
    . exact hasked.2.step (.inl hsame)
    . refine hasked.2.step (.inr ?_)
      exact Nat.lt_of_lt_of_eq (Nat.lt_succ_self _) hversion.symm
  . exact hperformed.follows.observes h.observe

theorem informed_performAll (h : s.Informed effects) (ops : List Operation) :
    (performAll ops s).Informed effects := by
  unfold performAll
  induction ops generalizing s with
  | nil => exact h
  | cons op rest ih => exact ih (informed_perform h op)

end Operation

end PageBinding
