import PageBinding.Proofs.Store.Transactions

/-!
This module contains what an edit does to a store: it fails and changes nothing, or one transaction
takes over what it has made of its collections, and then the listeners are called.
-/

namespace PageBinding

/--
A ledger has got to another one by at most one transaction, which has taken over some of the named
collections and left all others alone. A named one that it has left alone counts as what it would
have become.
-/
structure Ledger.Edited (names : List CollectionName) (c : Collections) (a b : Ledger) : Prop where
  once : b = a ∨ ∃ t : Transaction, t.Leads a b
  each : ∀ name,
    b.collections.get name = a.collections.get name ∧
        b.versions.get name = a.versions.get name ∨
      name ∈ names ∧ b.collections.get name = c.get name ∧
        b.versions.get name = a.versions.get name + 1
  stays : ∀ name ∈ names, b.collections.get name = c.get name ∨
    ∀ key, Stays (a.collections.under? name key) (c.under? name key)

namespace Ledger.Edited

theorem nothing (a : Ledger) : a.Edited [] a.collections a :=
  ⟨.inl rfl, fun _ => .inl ⟨rfl, rfl⟩, nofun⟩

theorem holds {names : List CollectionName} {c : Collections} {a b : Ledger}
    (h : a.Edited names c b) {name : CollectionName} (hname : name ∈ names) {key : Text}
    {entity : Entity} (hput : c.under? name key = some entity) :
    b.collections.under? name key = some entity ∨
      ∃ before, a.collections.under? name key = some before ∧ entity.agrees before = true ∧
        b.collections.under? name key = some before := by
  rcases h.each name with ⟨hsame, -⟩ | ⟨-, htaken, -⟩
  . rcases h.stays name hname with htaken | hstays
    . left
      rw [← hput, Collections.under?, htaken, Collections.under?]
    . have hkept : b.collections.under? name key = a.collections.under? name key := by
        rw [Collections.under?, hsame, Collections.under?]
      have hcounts := hstays key
      rw [hput] at hcounts
      rw [hkept]
      cases hbefore : a.collections.under? name key with
      | none =>
        rw [hbefore] at hcounts
        exact hcounts.elim
      | some before =>
        rw [hbefore] at hcounts
        rcases hcounts with hagrees | rfl
        . exact .inr ⟨before, rfl, hagrees, rfl⟩
        . exact .inl rfl
  . left
    rw [← hput, Collections.under?, htaken, Collections.under?]

end Ledger.Edited

namespace Store

variable {α : Type} {s s' : Store} {names : List CollectionName}

theorem filterMap_ofText?_text (names : List CollectionName) :
    (names.map CollectionName.text).filterMap CollectionName.ofText? = names := by
  induction names with
  | nil => rfl
  | cons name rest ih =>
    rw [List.map_cons, List.filterMap_cons_some (CollectionName.ofText?_text name), ih]

theorem begin_text (names : List CollectionName) :
    s.begin (names.map CollectionName.text) =
      if s.inTransaction then .error .nestedTransaction
      else .ok (names.map fun name => View.start name (s.collections.get name),
        { s with inTransaction := true }) := by
  have hunknown : (names.map CollectionName.text).filter
      (fun name => (CollectionName.ofText? name).isNone) = [] := by
    rw [List.filter_eq_nil_iff]
    intro t hmem
    obtain ⟨name, -, rfl⟩ := List.mem_map.mp hmem
    simp [CollectionName.ofText?_text]
  simp only [begin, hunknown, filterMap_ofText?_text, List.isEmpty_nil, if_true]

theorem edited_of_outcome {views : List View} {c : Collections} {t : Option Transaction}
    (viewed : s.collections.Viewed views) (h : s.Outcome views (t, s'))
    (names_eq : views.map View.name = names)
    (staged : ∀ view ∈ views, view.staged = c.get view.name) :
    s.ledger.Edited names c s'.ledger := by
  have hviews {view : View} (hview : view ∈ views) : view.name ∈ names :=
    names_eq ▸ List.mem_map_of_mem hview
  -- A view that amounts to no changes counts as the collection that it is a view of.
  have hstays {view : View} (hview : view ∈ views) (hnone : view.changes = []) (key : Text) :
      Stays (s.collections.under? view.name key) (c.under? view.name key) := by
    rw [Collections.under?, Collections.under?, ← staged view hview, ← viewed.base view hview]
    exact View.stays_of_not_differs (View.changes_eq_nil_iff.mp hnone key)
  cases h with
  | nothing hnone =>
    refine ⟨.inl rfl, fun name => .inl ⟨rfl, rfl⟩, ?_⟩
    intro name hname
    obtain ⟨view, hview, rfl⟩ := List.mem_map.mp (names_eq.symm ▸ hname)
    exact .inr (hstays hview (hnone view hview))
  | committed _ htakes hleads =>
    refine ⟨.inr ⟨_, hleads⟩, ?_, ?_⟩
    . intro name
      by_cases hchanged : ∃ view ∈ views, view.name = name ∧ view.changes ≠ []
      . obtain ⟨view, hview, rfl, hne⟩ := hchanged
        obtain ⟨hcollection, hversion⟩ := htakes.changed view hview hne
        exact .inr ⟨hviews hview, hcollection.trans (staged view hview), hversion⟩
      . simp only [not_exists, not_and, not_not] at hchanged
        exact .inl (htakes.unchanged name hchanged)
    . intro name hname
      obtain ⟨view, hview, rfl⟩ := List.mem_map.mp (names_eq.symm ▸ hname)
      by_cases hnone : view.changes = []
      . exact .inr (hstays hview hnone)
      . exact .inl ((htakes.changed view hview hnone).1.trans (staged view hview))

def Edited (s : Store) (names : List CollectionName) (c : Collections) (s' : Store) : Prop :=
  ∃ mid : Store, s.Follows mid ∧ s.ledger.Edited names c mid.ledger ∧ mid.Publishes s'

theorem Edited.nothing (s : Store) : s.Edited [] s.collections s :=
  ⟨s, .refl s, .nothing s.ledger, .refl s⟩

theorem Edited.ledger {c : Collections} (h : s.Edited names c s')
    (observe : ∀ listener ∈ s.listeners, listener.Observes) :
    s.ledger.Edited names c s'.ledger := by
  obtain ⟨mid, hmid, hedited, hpublishes⟩ := h
  rw [hpublishes.observed (hmid.observes observe)]
  exact hedited

def editedViews (s : Store) (names : List CollectionName) (c : Collections)
    (written : List (CollectionName × Text)) : List View :=
  names.map fun name =>
    ⟨name, s.collections.get name, c.get name,
      (written.filter (·.1 = name)).map Prod.snd⟩

theorem edit_eq_of_idle [Limits] (idle : s.inTransaction = false)
    (change : Collections → IdSupply → Except Failure (α × Collections × IdSupply))
    (written : α → List (CollectionName × Text)) :
    s.edit names change written =
      match change s.collections s.ids with
      | .error failure => (.error (.aborted failure), s)
      | .ok (a, c, ids) =>
        (.ok a, { s with ids }.commit (s.editedViews names c (written a))) := by
  unfold edit transact transactWith
  rw [begin_text, idle, if_neg Bool.false_ne_true]
  cases hchange : change s.collections s.ids with
  | error failure => simp only [hchange, abort, ← idle]
  | ok result =>
    simp only [hchange, List.map_map]
    rfl

theorem viewed_editedViews (nodup : names.Nodup) (c : Collections)
    (written : List (CollectionName × Text)) :
    s.collections.Viewed (s.editedViews names c written) := by
  apply (Collections.Viewed.start nodup).of_origin
  rw [editedViews, List.map_map, List.map_map]
  exact List.map_congr_left fun _ _ => rfl

theorem edit_cases [Limits] (nodup : names.Nodup)
    (change : Collections → IdSupply → Except Failure (α × Collections × IdSupply))
    (written : α → List (CollectionName × Text)) :
    (∃ failure, s.edit names change written = (.error failure, s)) ∨
      ∃ a c ids s', change s.collections s.ids = .ok (a, c, ids) ∧
        s.edit names change written = (.ok a, s') ∧ s.Edited names c s' := by
  cases idle : s.inTransaction with
  | true =>
    left
    simp only [edit, transact, transactWith, begin_text, idle, if_true]
    exact ⟨_, rfl⟩
  | false =>
    rw [edit_eq_of_idle idle]
    cases hchange : change s.collections s.ids with
    | error failure => exact .inl ⟨_, rfl⟩
    | ok result =>
      obtain ⟨a, c, ids⟩ := result
      right
      refine ⟨a, c, ids, _, rfl, rfl, ?_⟩
      obtain ⟨t, mid, houtcome, hpublishes⟩ := outcome_commit (s := { s with ids })
        (viewed_editedViews nodup c (written a))
      have hnames : (s.editedViews names c (written a)).map View.name = names := by
        rw [editedViews, List.map_map]
        exact List.map_id names
      have hstaged : ∀ view ∈ s.editedViews names c (written a),
          view.staged = c.get view.name := by
        intro view hmem
        obtain ⟨name, -, rfl⟩ := List.mem_map.mp hmem
        rfl
      have hedited := edited_of_outcome (s := { s with ids }.abort)
        (viewed_editedViews nodup c (written a)) houtcome hnames hstaged
      have hfollows := Follows.of_outcome houtcome
      exact ⟨mid, ⟨hfollows.instances, hfollows.inTransaction.trans idle.symm,
        hfollows.listeners⟩, hedited, hpublishes⟩

end Store

end PageBinding
