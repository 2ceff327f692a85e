import Mathlib
import PageBinding.Proofs.Store.Transactions

/-!
This module contains what becomes of a transaction that names a collection more than once. It has a
view for each occurrence of the name. The changes of all of them are published, but what the store
keeps is the last one.
-/

namespace PageBinding

namespace View

def lastOf? (views : List View) (name : CollectionName) : Option View :=
  views.reverse.find? (·.name = name)

def LastDiffers (views : List View) (name : CollectionName) : Prop :=
  ∀ last, lastOf? views name = some last →
    ∀ view ∈ views, view.name = name → ∀ key, view.Differs key → last.Differs key

variable {views : List View} {view last : View} {name : CollectionName} {key : Text}

theorem lastOf?_append_singleton (views : List View) (view : View) (name : CollectionName) :
    lastOf? (views ++ [view]) name =
      if view.name = name then some view else lastOf? views name := by
  unfold lastOf?
  rw [List.reverse_append, List.reverse_singleton, List.singleton_append, List.find?_cons]
  by_cases h : view.name = name <;> simp [h]

theorem mem_of_lastOf? (h : lastOf? views name = some last) : last ∈ views ∧ last.name = name := by
  have hname := List.find?_some h
  exact ⟨List.mem_reverse.mp (List.mem_of_find?_eq_some h), of_decide_eq_true hname⟩

theorem exists_lastOf? (hmem : view ∈ views) (hname : view.name = name) :
    ∃ last, lastOf? views name = some last := by
  rw [← Option.isSome_iff_exists, lastOf?, List.find?_isSome]
  exact ⟨view, List.mem_reverse.mpr hmem, decide_eq_true hname⟩

theorem lastDiffers_of_count_le (h : (views.map View.name).count name ≤ 1) :
    LastDiffers views name := by
  induction views using List.reverseRec with
  | nil => nofun
  | append_singleton rest view ih =>
    rw [List.map_append, List.count_append, List.map_singleton, List.count_singleton] at h
    intro last hlast other hother hname key hdiffers
    rw [lastOf?_append_singleton] at hlast
    split at hlast
    . next heq =>
      cases hlast
      have hnone : name ∉ rest.map View.name := by
        rw [← List.count_eq_zero]
        simp only [heq, beq_self_eq_true, if_true] at h
        omega
      rcases List.mem_append.mp hother with hrest | hlast
      . exact absurd (hname ▸ List.mem_map_of_mem hrest) hnone
      . rw [← List.mem_singleton.mp hlast]
        exact hdiffers
    . next hne =>
      rcases List.mem_append.mp hother with hrest | hlast
      . exact ih (by omega) last hlast other hrest hname key hdiffers
      . rw [List.mem_singleton.mp hlast] at hname
        exact absurd hname hne

theorem after_eq_of_mem_changes (c : Collections) {change : Change} (h : change ∈ view.changes) :
    change.after = (c.set view.name view.staged).under? change.collection change.key := by
  rw [(mem_changes_iff.mp h).1]
  simp [Collections.under?]

theorem under?_replay_of_differs (h : view.Differs key) (c : Collections) :
    (view.changes.foldl Change.apply c).under? view.name key = view.staged.get? key := by
  rw [Change.under?_foldl_apply fun _ => after_eq_of_mem_changes c, if_pos]
  . simp [Collections.under?]
  . exact ⟨⟨view.name, key, view.base.get? key, view.staged.get? key⟩,
      mem_changes_iff.mpr ⟨rfl, h⟩, rfl, rfl⟩

theorem under?_replay_of_not_differs (h : view.name = name → ¬ view.Differs key)
    (c : Collections) :
    (view.changes.foldl Change.apply c).under? name key = c.under? name key := by
  rw [Change.under?_foldl_apply fun _ => after_eq_of_mem_changes c, if_neg]
  rintro ⟨change, hmem, hname, hkey⟩
  rw [collection_of_mem_changes hmem] at hname
  exact h hname.symm (hkey ▸ (mem_changes_iff.mp hmem).2)

theorem under?_replayAll_of_not_differs (h : ∀ view ∈ views, view.name = name → ¬ view.Differs key)
    (c : Collections) :
    ((views.flatMap changes).foldl Change.apply c).under? name key = c.under? name key := by
  induction views generalizing c with
  | nil => rfl
  | cons view rest ih =>
    rw [List.flatMap_cons, List.foldl_append,
      ih (fun other hmem => h other (List.mem_cons_of_mem _ hmem)),
      under?_replay_of_not_differs (h view List.mem_cons_self)]

theorem under?_replayAll_of_differs (hlast : lastOf? views name = some last)
    (h : last.Differs key) (c : Collections) :
    ((views.flatMap changes).foldl Change.apply c).under? name key = last.staged.get? key := by
  induction views using List.reverseRec with
  | nil => cases hlast
  | append_singleton rest view ih =>
    rw [List.flatMap_append, List.foldl_append, List.flatMap_singleton]
    rw [lastOf?_append_singleton] at hlast
    split at hlast
    . next heq =>
      cases hlast
      rw [← heq, under?_replay_of_differs h]
    . next hne => rw [under?_replay_of_not_differs fun heq => absurd heq hne, ih hlast]

theorem stays_replayAll (hlast : lastOf? views name = some last) (h : LastDiffers views name)
    {c : Collections} (base : ∀ view ∈ views, view.base = c.get view.name) (key : Text) :
    Stays (((views.flatMap changes).foldl Change.apply c).under? name key)
      (last.staged.get? key) := by
  by_cases hdiffers : last.Differs key
  . rw [under?_replayAll_of_differs hlast hdiffers]
    exact Stays.refl _
  . -- No view of the collection differs there, so replaying leaves what it was.
    have hnone : ∀ view ∈ views, view.name = name → ¬ view.Differs key :=
      fun view hmem hname hview => hdiffers (h last hlast view hmem hname key hview)
    obtain ⟨hmem, hname⟩ := mem_of_lastOf? hlast
    rw [under?_replayAll_of_not_differs hnone, Collections.under?, ← hname, ← base last hmem]
    exact stays_of_not_differs hdiffers

end View

namespace Store

variable {s : Store} {views : List View} {name : CollectionName}

theorem get_foldl_takeOver (changed : List CollectionName) (views : List View) (s : Store)
    (name : CollectionName) :
    (views.foldl (takeOver changed) s).collections.get name =
        (if name ∈ changed then
          ((View.lastOf? views name).map View.staged).getD (s.collections.get name)
        else s.collections.get name) ∧
      (views.foldl (takeOver changed) s).versions.get name =
        s.versions.get name +
          if name ∈ changed then (views.map View.name).count name else 0 := by
  induction views using List.reverseRec with
  | nil => simp [View.lastOf?]
  | append_singleton rest view ih =>
    obtain ⟨hcollection, hversion⟩ := ih
    rw [List.foldl_append, List.foldl_cons, List.foldl_nil, takeOver]
    split
    . next hchanged =>
      rw [Collections.get_set, Versions.get_bump, hcollection, hversion,
        View.lastOf?_append_singleton, List.map_append, List.count_append, List.map_singleton,
        List.count_singleton]
      by_cases heq : name = view.name
      . subst heq
        simp [hchanged, Nat.add_assoc]
      . simp [heq, Ne.symm heq]
    . next hunchanged =>
      rw [hcollection, hversion, View.lastOf?_append_singleton, List.map_append, List.count_append,
        List.map_singleton, List.count_singleton]
      by_cases heq : name = view.name
      . subst heq
        simp [hunchanged]
      . simp [Ne.symm heq]

structure Commits (s : Store) (views : List View) (ts : List Transaction) (s' : Store) : Prop where
  published : s'.published = s.published ++ ts
  changes : ts.flatMap Transaction.changes = views.flatMap View.changes
  collections : ∀ name, s'.collections.get name =
    if ts.any (·.touches name) then
      ((View.lastOf? views name).map View.staged).getD (s.collections.get name)
    else s.collections.get name
  versions : ∀ name, s'.versions.get name = s.versions.get name +
    if ts.any (·.touches name) then (views.map View.name).count name else 0

theorem any_touches_iff {ts : List Transaction}
    (changes : ts.flatMap Transaction.changes = views.flatMap View.changes) :
    ts.any (·.touches name) = true ↔ name ∈ (views.flatMap View.changes).map Change.collection := by
  rw [← changes, List.map_flatMap, List.mem_flatMap, List.any_eq_true]
  simp only [Transaction.touches, List.any_eq_true, decide_eq_true_eq, List.mem_map]

theorem commits_takeOverAll (s : Store) (views : List View) :
    s.Commits views (s.takeOverAll views).1.toList (s.takeOverAll views).2 := by
  simp only [takeOverAll]
  split
  . next hempty =>
    rw [List.isEmpty_iff] at hempty
    constructor <;> simp [hempty]
  . have hchanges : ∀ t : Transaction, t.changes = views.flatMap View.changes →
        (Option.toList (some t)).flatMap Transaction.changes = views.flatMap View.changes := by
      intro t ht
      simp [ht]
    constructor
    . obtain ⟨c, v, heq⟩ := foldl_takeOver_rest
        ((views.flatMap View.changes).map Change.collection) views s
      simp [heq]
    . exact hchanges _ rfl
    . intro name
      rw [if_congr (any_touches_iff (hchanges _ rfl)) rfl rfl]
      exact (get_foldl_takeOver _ views s name).1
    . intro name
      rw [if_congr (any_touches_iff (hchanges _ rfl)) rfl rfl]
      exact (get_foldl_takeOver _ views s name).2

theorem Commits.stays_replay {ts : List Transaction} {s' : Store} (h : s.Commits views ts s')
    (base : ∀ view ∈ views, view.base = s.collections.get view.name)
    (hdiffers : View.LastDiffers views name) (key : Text) :
    Stays ((s.collections.replay ts).under? name key) (s'.collections.under? name key) := by
  have hreplay : s.collections.replay ts =
      (views.flatMap View.changes).foldl Change.apply s.collections := by
    rw [← h.changes, List.foldl_flatMap]
    rfl
  have htouches : ts.any (·.touches name) = true ↔
      ∃ view ∈ views, view.name = name ∧ view.changes ≠ [] :=
    (any_touches_iff h.changes).trans mem_collections_iff
  have hunder : s'.collections.under? name key =
      (if ts.any (·.touches name) then
        ((View.lastOf? views name).map View.staged).getD (s.collections.get name)
      else s.collections.get name).get? key := by
    rw [Collections.under?, h.collections]
  rw [hreplay, hunder]
  split
  . next htouched =>
    obtain ⟨view, hview, hname, -⟩ := htouches.mp htouched
    obtain ⟨last, hlast⟩ := View.exists_lastOf? hview hname
    rw [hlast]
    exact View.stays_replayAll hlast hdiffers base key
  . next huntouched =>
    rw [View.under?_replayAll_of_not_differs]
    . exact Stays.refl _
    . intro view hview hname hkey
      refine huntouched (htouches.mpr ⟨view, hview, hname, fun hnil => ?_⟩)
      exact View.changes_eq_nil_iff.mp hnil key hkey

theorem count_filterMap_ofText? (names : List Text) (name : CollectionName) :
    (names.filterMap CollectionName.ofText?).count name = names.count name.text := by
  induction names with
  | nil => rfl
  | cons t rest ih =>
    by_cases ht : t = name.text
    . rw [ht, List.filterMap_cons_some (CollectionName.ofText?_text name), List.count_cons_self,
        List.count_cons_self, ih]
    . rw [List.count_cons_of_ne ht, ← ih]
      cases hname : CollectionName.ofText? t with
      | none => rw [List.filterMap_cons_none hname]
      | some other =>
        rw [List.filterMap_cons_some hname, List.count_cons_of_ne]
        rintro rfl
        exact ht (CollectionName.text_of_ofText? hname).symm

theorem views_of_begin {s s' : Store} {names : List Text} {views : List View}
    (h : s.begin names = .ok (views, s')) :
    views.map View.name = names.filterMap CollectionName.ofText? ∧
      ∀ view ∈ views, view.base = s.collections.get view.name := by
  unfold begin at h
  split at h
  . cases h
  . simp only at h
    split at h
    . cases h
      rw [List.map_map]
      refine ⟨List.map_id _, ?_⟩
      intro view hmem
      obtain ⟨name, -, rfl⟩ := List.mem_map.mp hmem
      rfl
    . cases h

end Store

namespace Call

/--
What a call has done to a store, in which the listeners have not been called yet. A collection whose
last view differs wherever another one does holds what replaying the changes gives, and so does one
that is named once.
-/
structure Committed [Limits] {α : Type} (call : Call α) (s : Store) (a : α) (ts : List Transaction)
    (mid : Store) : Prop where
  follows : s.Follows mid
  once : ts.length ≤ 1
  published : mid.published = s.published ++ ts
  versions : ∀ name, mid.versions.get name = s.versions.get name +
    if ts.any (·.touches name) then call.names.count name.text else 0
  replayed : ∃ views ws s₁ s₂, s.begin call.names = .ok (views, s₁) ∧
    call.mutator.run views s₁ = (.ok (a, ws), s₂) ∧
    ts.flatMap Transaction.changes = ws.flatMap View.changes ∧
    ∀ name, (call.names.count name.text ≤ 1 → View.LastDiffers ws name) ∧
      (View.LastDiffers ws name → ∀ key,
        Stays ((s.collections.replay ts).under? name key) (mid.collections.under? name key))

variable {α : Type}

theorem views_of_run [Limits] {call : Call α} {s s₁ s₂ : Store} {views ws : List View} {a : α}
    (hbegin : s.begin call.names = .ok (views, s₁))
    (hrun : call.mutator.run views s₁ = (.ok (a, ws), s₂)) :
    ws.map View.name = call.names.filterMap CollectionName.ofText? ∧
      ∀ w ∈ ws, w.base = s.collections.get w.name := by
  obtain ⟨hnames, hbase⟩ := Store.views_of_begin hbegin
  have horigin := Mutator.origin_run hrun
  exact ⟨(Collections.Viewed.names_of_origin horigin).trans hnames,
    Collections.Viewed.base_of_origin horigin hbase⟩

/--
A call that returns raises the version of each collection that has changed once for each time it is
named. What it publishes tells all that has become of a collection, if the last view of that
differs wherever another one does.
-/
theorem perform_committed [Limits] {call : Call α} {s s' : Store} {a : α}
    (h : call.perform s = (.ok a, s')) :
    ∃ ts mid, call.Committed s a ts mid ∧ mid.Publishes s' := by
  rcases call.perform_cases s with ⟨failure, heq⟩ | ⟨views, s₁, b, ws, hbegin, hrun, heq⟩
  . rw [heq] at h
    cases h
  rw [heq] at h
  cases h
  obtain ⟨hnames, hbase⟩ := views_of_run hbegin hrun
  have hcommits := Store.commits_takeOverAll s ws
  have hpublishes := Store.publishes_commit s ws
  rw [Store.abort_of_begin hbegin] at hpublishes
  have hcount (name : CollectionName) :
      (ws.map View.name).count name = call.names.count name.text := by
    rw [hnames, Store.count_filterMap_ofText?]
  refine ⟨_, _, ⟨.takeOverAll s ws, Option.length_toList_le, hcommits.published, ?_, ?_⟩,
    hpublishes⟩
  . intro name
    rw [hcommits.versions, hcount]
  . refine ⟨views, ws, s₁, s₁, hbegin, hrun, hcommits.changes, fun name => ⟨?_, ?_⟩⟩
    . rw [← hcount]
      exact View.lastDiffers_of_count_le
    . exact hcommits.stays_replay hbase

def flagTwice (i : Nat) : Call Unit :=
  ⟨["props", "props"], .write i (.set "flag" (.raw (.bool true))) fun _ => .done ()⟩

def bareStore : Store :=
  .new .empty .empty ⟨[], 0⟩ ⟨[], 0⟩

theorem returned_flagTwice : ((flagTwice 0).perform bareStore).1 = .ok () ∧
    ((flagTwice 1).perform bareStore).1 = .ok () := by
  constructor <;> cbv

theorem perform_committed_flagTwice :
    ∃ ts mid, (flagTwice 1).Committed bareStore () ts mid ∧
      mid.Publishes ((flagTwice 1).perform bareStore).2 :=
  perform_committed (Prod.ext returned_flagTwice.2 rfl)

/--
What is put into the first one of two views is published and lost, and the version is raised twice.
-/
theorem not_forall_replayed :
    ¬ ∀ (call : Call Unit) (s s' : Store) (ts : List Transaction), s.listeners = [] →
      (∀ name ∈ call.names, (CollectionName.ofText? name).isSome = true) →
      call.perform s = (.ok (), s') → s'.published = s.published ++ ts →
        (∀ name key, Stays ((s.collections.replay ts).under? name key)
          (s'.collections.under? name key)) ∨
        ∀ name, s'.versions.get name = s.versions.get name +
          if ts.any (·.touches name) then 1 else 0 := by
  intro h
  have hnames : ∀ name ∈ (flagTwice 0).names, (CollectionName.ofText? name).isSome = true := by
    decide
  rcases h (flagTwice 0) bareStore ((flagTwice 0).perform bareStore).2
    ((flagTwice 0).perform bareStore).2.published rfl hnames (Prod.ext returned_flagTwice.1 rfl) rfl
    with hstays | hversions
  . have hflag := hstays .props "flag"
    have hreplayed : ((bareStore.collections.replay
        ((flagTwice 0).perform bareStore).2.published).under? .props "flag") =
          some (.raw (.bool true)) := by
      cbv
    have hlost : ((flagTwice 0).perform bareStore).2.collections.under? .props "flag" = none := by
      cbv
    rw [hreplayed, hlost] at hflag
    exact hflag
  . have hversion := hversions .props
    revert hversion
    decide +kernel

end Call

end PageBinding
