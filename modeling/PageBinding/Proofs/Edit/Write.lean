import PageBinding.Edit
import PageBinding.Proofs.Store.Edit

/-!
This module contains the writes that the operations amount to, and the rules by which it is shown of
an operation that it fails without a trace or makes one write.
-/

namespace PageBinding

namespace Edit

inductive Write where
  | nothing
  | rename (id : Text) (v : Variable)
  /-- Put a variable under its id, with its resource if it has one now, and drop the resource that
  it had before. -/
  | save (v : Variable) (resource : Option Resource)
  | erase (id : Text)
  | setProperty (p : Property)
  | eraseProperty (id : Text)

namespace Write

def names : Write → List CollectionName
  | nothing => []
  | rename .. | erase _ => [.vars]
  | save .. => [.vars, .resources]
  | setProperty _ | eraseProperty _ => [.props]

def apply (c : Collections) : Write → Collections
  | nothing => c
  | rename id v => { c with vars := c.vars.insert id (.variable_ v) }
  | save v none => (dropResource c v.id none).putVariable v
  | save v (some resource) =>
    ((dropResource c v.id (some resource.id)).putResource resource).putVariable v
  | erase id => { c with vars := c.vars.erase id }
  | setProperty p => c.putProperty p
  | eraseProperty id => { c with props := c.props.erase id }

end Write

variable {α β : Type} {s : Store}

theorem run_bind (edit : Edit β) (next : β → Edit α) (s : Store) :
    (edit >>= next).run s =
      match edit.run s with
      | (.error failure, s') => (.error failure, s')
      | (.ok b, s') => (next b).run s' := by
  unfold run
  simp only [Bind.bind, ExceptT.bind, ExceptT.mk, StateT.bind]
  rcases edit s with ⟨_ | b, s'⟩ <;> rfl

theorem run_ofExcept_bind (result : Except Failure β) (next : β → Edit α) (s : Store) :
    (ofExcept result >>= next).run s =
      match result with
      | .error failure => (.error failure, s)
      | .ok b => (next b).run s := by
  rw [run_bind]
  cases result <;> rfl

theorem run_get_bind (next : Store → Edit α) (s : Store) :
    (getThe Store >>= next).run s = (next s).run s :=
  rfl

theorem run_commit [Limits] (names : List CollectionName)
    (written : α → List (CollectionName × Text))
    (change : Collections → IdSupply → Except Failure (α × Collections × IdSupply)) (s : Store) :
    (commit names written change).run s = s.edit names change written :=
  rfl

/--
An operation fails and leaves the ledger alone, or it returns a result and makes a write that belong
to each other.
-/
def Ensures (edit : Edit α) (s : Store) (holds : α → Write → Prop) : Prop :=
  match edit.run s with
  | (.error _, s') => s'.ledger = s.ledger ∧ s.Follows s'
  | (.ok a, s') => ∃ w : Write, holds a w ∧ s.Edited w.names (w.apply s.collections) s'

theorem ensures_mono {edit : Edit α} {holds holds' : α → Write → Prop}
    (h : Ensures edit s holds) (himp : ∀ a w, holds a w → holds' a w) :
    Ensures edit s holds' := by
  unfold Ensures at h ⊢
  split
  . next heq =>
    rw [heq] at h
    exact h
  . next heq =>
    rw [heq] at h
    obtain ⟨w, hw, hedited⟩ := h
    exact ⟨w, himp _ w hw, hedited⟩

section Rules

variable {holds : α → Write → Prop}

theorem ensures_pure {a : α} (h : holds a .nothing) : Ensures (pure a) s holds :=
  ⟨.nothing, h, .nothing s⟩

theorem ensures_throw (failure : Failure) : Ensures (throw failure : Edit α) s holds :=
  ⟨rfl, .refl s⟩

theorem ensures_ofExcept_bind {result : Except Failure β} {next : β → Edit α}
    (h : ∀ b, result = .ok b → Ensures (next b) s holds) :
    Ensures (ofExcept result >>= next) s holds := by
  cases result with
  | error failure => exact ensures_throw failure
  | ok b => exact h b rfl

theorem ensures_get_bind {next : Store → Edit α} (h : Ensures (next s) s holds) :
    Ensures (getThe Store >>= next) s holds :=
  h

theorem ensures_takeId_bind {next : Text → Edit α}
    (h : ∀ ids, Ensures (next s.takeId.1) { s with ids } holds) :
    Ensures (takeId >>= next) s holds := by
  -- The supply of ids is no part of the ledger, so what is ensured after it does not depend on it.
  have hrun : (takeId >>= next).run s =
      (next s.takeId.1).run { s with ids := s.takeId.2.ids } := rfl
  have hnext := h s.takeId.2.ids
  unfold Ensures at hnext ⊢
  rw [hrun]
  split
  . next heq =>
    rw [heq] at hnext
    obtain ⟨hledger, hfollows⟩ := hnext
    exact ⟨hledger, hfollows.instances, hfollows.inTransaction, hfollows.listeners⟩
  . next heq =>
    rw [heq] at hnext
    obtain ⟨w, hw, mid, hfollows, hedited, hpublishes⟩ := hnext
    exact ⟨w, hw, mid, ⟨hfollows.instances, hfollows.inTransaction, hfollows.listeners⟩, hedited,
      hpublishes⟩

theorem ensures_bind_pure {edit : Edit β} {f : β → α} {holds' : β → Write → Prop}
    (h : Ensures edit s holds') (himp : ∀ b w, holds' b w → holds (f b) w) :
    Ensures (edit >>= fun b => pure (f b)) s holds := by
  unfold Ensures at h ⊢
  rw [run_bind]
  rcases hedit : edit.run s with ⟨result, s'⟩
  rw [hedit] at h
  cases result with
  | error failure => exact h
  | ok b =>
    obtain ⟨w, hw, hedited⟩ := h
    exact ⟨w, himp b w hw, hedited⟩

theorem ensures_commit [Limits] {names : List CollectionName}
    {written : α → List (CollectionName × Text)}
    {change : Collections → IdSupply → Except Failure (α × Collections × IdSupply)}
    (nodup : names.Nodup)
    (h : ∀ a c ids, change s.collections s.ids = .ok (a, c, ids) →
      ∃ w : Write, holds a w ∧ w.names = names ∧ w.apply s.collections = c) :
    Ensures (commit names written change) s holds := by
  unfold Ensures
  rw [run_commit]
  rcases Store.edit_cases nodup change written with
    ⟨failure, heq⟩ | ⟨a, c, ids, s', hchange, heq, hedited⟩
  . rw [heq]
    exact ⟨rfl, .refl s⟩
  . rw [heq]
    obtain ⟨w, hw, hnames, happly⟩ := h a c ids hchange
    rw [← hnames, ← happly] at hedited
    exact ⟨w, hw, hedited⟩

end Rules

end Edit

end PageBinding
