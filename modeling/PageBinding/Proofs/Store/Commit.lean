import Mathlib.Data.List.Nodup
import PageBinding.Proofs.Store.Ledger

/-!
This module contains what the beginning and the end of a transaction do to a store: which views the
end takes over, and that what it publishes leads from the ledger before to the ledger after,
whatever the listeners do.
-/

namespace PageBinding

structure Collections.Viewed (c : Collections) (views : List View) : Prop where
  nodup : (views.map View.name).Nodup
  base : ∀ view ∈ views, view.base = c.get view.name

namespace Collections.Viewed

variable {c : Collections} {views : List View}

theorem start {names : List CollectionName} (h : names.Nodup) :
    c.Viewed (names.map fun name => View.start name (c.get name)) := by
  constructor
  . rw [List.map_map]
    exact (List.map_id names).symm ▸ h
  . intro view hmem
    obtain ⟨name, -, rfl⟩ := List.mem_map.mp hmem
    rfl

theorem names_of_origin {ws : List View} (h : ws.map View.origin = views.map View.origin) :
    ws.map View.name = views.map View.name := by
  have hnames := congrArg (List.map Prod.fst) h
  rwa [List.map_map, List.map_map] at hnames

theorem base_of_origin {ws : List View} (h : ws.map View.origin = views.map View.origin)
    (base : ∀ view ∈ views, view.base = c.get view.name) : ∀ w ∈ ws, w.base = c.get w.name := by
  intro w hmem
  have hw : w.origin ∈ views.map View.origin := h ▸ List.mem_map_of_mem hmem
  obtain ⟨v, hv, heq⟩ := List.mem_map.mp hw
  injection heq with hname hbase
  rw [← hbase, ← hname]
  exact base v hv

theorem of_origin (h : c.Viewed views) {ws : List View}
    (horigin : ws.map View.origin = views.map View.origin) : c.Viewed ws :=
  ⟨names_of_origin horigin ▸ h.nodup, base_of_origin horigin h.base⟩

end Collections.Viewed

theorem CollectionName.text_of_ofText? {t : Text} {name : CollectionName}
    (h : CollectionName.ofText? t = some name) : name.text = t := by
  have hfound := List.find?_some h
  exact of_decide_eq_true hfound

namespace Store

theorem nodup_filterMap_ofText? {names : List Text} (h : names.Nodup) :
    (names.filterMap CollectionName.ofText?).Nodup := by
  apply List.Nodup.filterMap _ h
  intro a b name ha hb
  rw [← CollectionName.text_of_ofText? ha, ← CollectionName.text_of_ofText? hb]

theorem begin_eq_ok {s s' : Store} {names : List Text} {views : List View}
    (h : s.begin names = .ok (views, s')) :
    s' = { s with inTransaction := true } ∧ s'.abort = s ∧
      (names.Nodup → s.collections.Viewed views) := by
  unfold begin at h
  split at h
  . cases h
  . next hidle =>
    simp only at h
    split at h
    . simp only [Except.ok.injEq, Prod.mk.injEq] at h
      obtain ⟨rfl, rfl⟩ := h
      refine ⟨rfl, ?_, fun hnodup => .start (nodup_filterMap_ofText? hnodup)⟩
      rw [Bool.not_eq_true] at hidle
      simp only [abort, ← hidle]
    . cases h

theorem abort_of_begin {s s' : Store} {names : List Text} {views : List View}
    (h : s.begin names = .ok (views, s')) : s.abort = s := by
  obtain ⟨rfl, habort, -⟩ := begin_eq_ok h
  exact habort

theorem foldl_takeOver_rest (changed : List CollectionName) (views : List View) (s : Store) :
    ∃ c v, views.foldl (takeOver changed) s = { s with collections := c, versions := v } := by
  induction views generalizing s with
  | nil => exact ⟨s.collections, s.versions, rfl⟩
  | cons view rest ih =>
    obtain ⟨c, v, heq⟩ := ih (takeOver changed s view)
    refine ⟨c, v, ?_⟩
    rw [List.foldl_cons, heq]
    unfold takeOver
    split <;> rfl

theorem takeOverAll_cases (s : Store) (views : List View) :
    s.takeOverAll views = (none, s) ∨
      ∃ c v, ∃ t : Transaction, t.id = s.transactionIds.take.1 ∧
        s.takeOverAll views = (some t, { s with
          collections := c, versions := v, published := s.published ++ [t],
          transactionIds := s.transactionIds.take.2 }) := by
  simp only [takeOverAll]
  split
  . exact .inl rfl
  . obtain ⟨c, v, heq⟩ := foldl_takeOver_rest
      ((views.flatMap View.changes).map Change.collection) views s
    rw [heq]
    exact .inr ⟨c, v, _, rfl, rfl⟩

theorem foldl_takeOver_of_unchanged {changed : List CollectionName} {views : List View}
    {name : CollectionName} (h : ∀ view ∈ views, view.name = name → name ∉ changed) (s : Store) :
    (views.foldl (takeOver changed) s).collections.get name = s.collections.get name ∧
      (views.foldl (takeOver changed) s).versions.get name = s.versions.get name := by
  induction views generalizing s with
  | nil => exact ⟨rfl, rfl⟩
  | cons view rest ih =>
    obtain ⟨hcollection, hversion⟩ :=
      ih (fun other hmem => h other (List.mem_cons_of_mem _ hmem)) (takeOver changed s view)
    rw [List.foldl_cons, hcollection, hversion]
    unfold takeOver
    split
    . next hchanged =>
      have hname : name ≠ view.name := by
        intro heq
        exact h view List.mem_cons_self heq.symm (heq ▸ hchanged)
      simp [Collections.get_set, Versions.get_bump, hname]
    . exact ⟨rfl, rfl⟩

theorem foldl_takeOver_of_changed {changed : List CollectionName} {views : List View}
    (nodup : (views.map View.name).Nodup) {view : View} (hmem : view ∈ views)
    (hchanged : view.name ∈ changed) (s : Store) :
    (views.foldl (takeOver changed) s).collections.get view.name = view.staged ∧
      (views.foldl (takeOver changed) s).versions.get view.name =
        s.versions.get view.name + 1 := by
  induction views generalizing s with
  | nil => cases hmem
  | cons other rest ih =>
    rw [List.map_cons, List.nodup_cons] at nodup
    rw [List.foldl_cons]
    rcases List.mem_cons.mp hmem with rfl | hrest
    . -- The views after this one are views of other collections.
      have hothers : ∀ w ∈ rest, w.name = view.name → view.name ∉ changed := by
        intro w hw hname
        exact absurd (hname ▸ List.mem_map_of_mem hw) nodup.1
      obtain ⟨hcollection, hversion⟩ :=
        foldl_takeOver_of_unchanged hothers (takeOver changed s view)
      rw [hcollection, hversion]
      simp [takeOver, hchanged, Versions.get_bump]
    . obtain ⟨hcollection, hversion⟩ := ih nodup.2 hrest (takeOver changed s other)
      refine ⟨hcollection, ?_⟩
      have hname : view.name ≠ other.name := by
        intro heq
        exact nodup.1 (heq ▸ List.mem_map_of_mem hrest)
      rw [hversion]
      unfold takeOver
      split
      . simp [Versions.get_bump, hname]
      . rfl

structure TakesOver (s : Store) (views : List View) (s' : Store) : Prop where
  rest : ∃ c v p i, s' = { s with
    collections := c, versions := v, published := p, transactionIds := i }
  changed : ∀ view ∈ views, view.changes ≠ [] →
    s'.collections.get view.name = view.staged ∧
      s'.versions.get view.name = s.versions.get view.name + 1
  unchanged : ∀ name, (∀ view ∈ views, view.name = name → view.changes = []) →
    s'.collections.get name = s.collections.get name ∧
      s'.versions.get name = s.versions.get name

theorem TakesOver.publish {s s' : Store} {views : List View} (h : s.TakesOver views s')
    (published : List Transaction) (transactionIds : IdSupply) :
    s.TakesOver views { s' with published, transactionIds } := by
  obtain ⟨c, v, p, i, heq⟩ := h.rest
  exact ⟨⟨c, v, published, transactionIds, by rw [heq]⟩, h.changed, h.unchanged⟩

theorem mem_collections_iff {views : List View} {name : CollectionName} :
    name ∈ (views.flatMap View.changes).map Change.collection ↔
      ∃ view ∈ views, view.name = name ∧ view.changes ≠ [] := by
  rw [List.mem_map]
  constructor
  . rintro ⟨change, hchange, rfl⟩
    obtain ⟨view, hview, hin⟩ := List.mem_flatMap.mp hchange
    exact ⟨view, hview, (View.collection_of_mem_changes hin).symm, List.ne_nil_of_mem hin⟩
  . rintro ⟨view, hview, rfl, hne⟩
    obtain ⟨change, hin⟩ := List.exists_mem_of_ne_nil _ hne
    exact ⟨change, List.mem_flatMap.mpr ⟨view, hview, hin⟩, View.collection_of_mem_changes hin⟩

theorem takesOver_foldl {s : Store} {views : List View} (nodup : (views.map View.name).Nodup) :
    s.TakesOver views
      (views.foldl (takeOver ((views.flatMap View.changes).map Change.collection)) s) := by
  constructor
  . obtain ⟨c, v, heq⟩ := foldl_takeOver_rest _ views s
    exact ⟨c, v, s.published, s.transactionIds, heq⟩
  . intro view hview hne
    exact foldl_takeOver_of_changed nodup hview (mem_collections_iff.mpr ⟨view, hview, rfl, hne⟩) s
  . intro name hnone
    apply foldl_takeOver_of_unchanged
    intro view hview hname hchanged
    obtain ⟨other, hother, heq, hne⟩ := mem_collections_iff.mp hchanged
    exact hne (hnone other hother heq)

theorem nodup_changes {views : List View} (nodup : (views.map View.name).Nodup) :
    ((views.flatMap View.changes).map fun change => (change.collection, change.key)).Nodup := by
  -- Changes of one view differ in their keys, those of two views in their collections.
  rw [List.map_flatMap, List.nodup_flatMap]
  constructor
  . intro view _
    have hkeys : (view.changes.map fun change => (change.collection, change.key)) =
        (view.changes.map Change.key).map fun key => (view.name, key) := by
      rw [List.map_map]
      apply List.map_congr_left
      intro change hmem
      rw [View.collection_of_mem_changes hmem]
      rfl
    rw [hkeys]
    exact (View.nodup_keys_changes view).map fun a b h => congrArg Prod.snd h
  . have hnames := List.pairwise_map.mp nodup
    apply hnames.imp
    intro v w hne
    simp only [Function.onFun, List.disjoint_left, List.mem_map, not_exists, not_and]
    rintro _ ⟨change, hv, rfl⟩ other hw heq
    rw [View.collection_of_mem_changes hv, View.collection_of_mem_changes hw] at heq
    exact hne (congrArg Prod.fst heq).symm

theorem touches_iff {views : List View} {t : Transaction}
    (changes : t.changes = views.flatMap View.changes) {name : CollectionName} :
    t.touches name = true ↔ ∃ view ∈ views, view.name = name ∧ view.changes ≠ [] := by
  rw [← mem_collections_iff, ← changes, Transaction.touches, List.any_eq_true, List.mem_map]
  simp only [decide_eq_true_eq]

theorem TakesOver.stays {s s' : Store} {views : List View} (h : s.TakesOver views s')
    (viewed : s.collections.Viewed views) {name : CollectionName} {key : Text}
    (hsame : ∀ view ∈ views, view.name = name → ¬ view.Differs key) :
    Stays (s.collections.under? name key) (s'.collections.under? name key) := by
  by_cases hchanged : ∃ view ∈ views, view.name = name ∧ view.changes ≠ []
  . obtain ⟨view, hview, rfl, hne⟩ := hchanged
    simp only [Collections.under?, (h.changed view hview hne).1, ← viewed.base view hview]
    exact View.stays_of_not_differs (hsame view hview rfl)
  . simp only [not_exists, not_and, not_not] at hchanged
    simp only [Collections.under?, (h.unchanged name hchanged).1]
    exact Stays.refl _

theorem TakesOver.version {s s' : Store} {views : List View} {t : Transaction}
    (h : s.TakesOver views s') (changes : t.changes = views.flatMap View.changes)
    (name : CollectionName) :
    s'.versions.get name = s.versions.get name + if t.touches name then 1 else 0 := by
  split
  . next htouches =>
    obtain ⟨view, hview, rfl, hne⟩ := (touches_iff changes).mp htouches
    exact (h.changed view hview hne).2
  . next huntouched =>
    rw [touches_iff changes] at huntouched
    simp only [not_exists, not_and, not_not] at huntouched
    exact (h.unchanged name huntouched).2

theorem TakesOver.leads {s s' : Store} {views : List View} {t : Transaction}
    (h : s.TakesOver views s') (viewed : s.collections.Viewed views)
    (published : s'.published = s.published ++ [t])
    (changes : t.changes = views.flatMap View.changes) : t.Leads s.ledger s'.ledger := by
  have hmem {change : Change} : change ∈ t.changes ↔ ∃ view ∈ views, change ∈ view.changes := by
    rw [changes, List.mem_flatMap]
  constructor
  . exact published
  . rw [changes]
    exact nodup_changes viewed.nodup
  . intro change hchange
    obtain ⟨view, hview, hin⟩ := hmem.mp hchange
    rw [(View.mem_changes_iff.mp hin).1]
    simp only [ledger, Collections.under?, viewed.base view hview]
  . intro change hchange
    obtain ⟨view, hview, hin⟩ := hmem.mp hchange
    rw [(View.mem_changes_iff.mp hin).1]
    simp only [ledger, Collections.under?, (h.changed view hview (List.ne_nil_of_mem hin)).1]
  . intro change hchange
    obtain ⟨view, -, hin⟩ := hmem.mp hchange
    obtain ⟨heq, hdiffers⟩ := View.mem_changes_iff.mp hin
    rw [heq]
    exact View.departs_of_differs hdiffers
  . intro name key hnone
    apply h.stays viewed
    rintro view hview rfl hdiffers
    refine hnone ⟨view.name, key, view.base.get? key, view.staged.get? key⟩ ?_ rfl rfl
    rw [hmem]
    exact ⟨view, hview, View.mem_changes_iff.mpr ⟨rfl, hdiffers⟩⟩
  . exact h.version changes

inductive Outcome (s : Store) (views : List View) : Option Transaction × Store → Prop where
  | nothing : (∀ view ∈ views, view.changes = []) → Outcome s views (none, s)
  | committed {t : Transaction} {s' : Store} :
      t.changes ≠ [] → s.TakesOver views s' → t.Leads s.ledger s'.ledger →
        Outcome s views (some t, s')

theorem outcome_takeOverAll {s : Store} {views : List View} (viewed : s.collections.Viewed views) :
    s.Outcome views (s.takeOverAll views) := by
  simp only [takeOverAll]
  split
  . next hempty =>
    apply Outcome.nothing
    rw [List.isEmpty_iff, List.flatMap_eq_nil_iff] at hempty
    exact hempty
  . next hne =>
    rw [List.isEmpty_iff] at hne
    have htakes := (takesOver_foldl (s := s) viewed.nodup).publish
    refine Outcome.committed hne (htakes _ _) ((htakes _ _).leads viewed ?_ rfl)
    obtain ⟨c, v, heq⟩ := foldl_takeOver_rest
      ((views.flatMap View.changes).map Change.collection) views s
    rw [heq]

end Store

end PageBinding
