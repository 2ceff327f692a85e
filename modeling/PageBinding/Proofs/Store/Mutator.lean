import PageBinding.Proofs.Store.Publish

/-!
This module contains mutators as programs over the views of a transaction, and what runs of
transactions publish. A mutator reads its views and the store, edits its views, may fail, and may
try to begin a transaction inside of its own.
-/

namespace PageBinding

inductive ViewEdit where
  | set (key : Text) (entity : Entity)
  | restore (key : Text)
  | erase (key : Text)
  | pop (key : Text) (default : Option Entity)
  | popFirst
  | getOrSet (key : Text) (entity : Entity)
  | setAll (pairs : List (Text × Entity))
  | clear

def ViewEdit.apply (edit : ViewEdit) (v : View) : Except Failure View :=
  match edit with
  | .set key entity => .ok (v.set key entity)
  | .restore key => .ok (v.restore key)
  | .erase key => .ok (v.erase key)
  | .pop key default => (v.pop key default).map Prod.snd
  | .popFirst => v.popFirst.map Prod.snd
  | .getOrSet key entity => .ok (v.getOrSet key entity).2
  | .setAll pairs => .ok (v.setAll pairs)
  | .clear => .ok v.clear

theorem ViewEdit.origin_of_apply {edit : ViewEdit} {v w : View} (h : edit.apply v = .ok w) :
    w.origin = v.origin := by
  cases edit with
  | set key entity =>
    cases h
    exact View.origin_set v key entity
  | restore key =>
    cases h
    exact View.origin_restore v key
  | erase key =>
    cases h
    exact View.origin_erase v key
  | pop key default =>
    simp only [apply] at h
    cases hpop : v.pop key default with
    | error failure =>
      rw [hpop] at h
      cases h
    | ok result =>
      rw [hpop] at h
      cases h
      exact View.origin_of_pop hpop
  | popFirst =>
    simp only [apply] at h
    cases hpop : v.popFirst with
    | error failure =>
      rw [hpop] at h
      cases h
    | ok result =>
      rw [hpop] at h
      cases h
      exact View.origin_of_popFirst hpop
  | getOrSet key entity =>
    cases h
    exact View.origin_getOrSet v key entity
  | setAll pairs =>
    cases h
    exact View.origin_setAll v pairs
  | clear =>
    cases h
    exact View.origin_clear v

inductive Mutator (α : Type) where
  | done (a : α)
  | fail (failure : Failure)
  | look (next : List View → Store → Mutator α)
  | write (i : Nat) (edit : ViewEdit) (next : Except Failure Unit → Mutator α)
  /-- Try to run another transaction and go on by what has come of it. -/
  | nested (names : List Text) (inner : Mutator α) (next : Except Failure α → Mutator α)

namespace Mutator

variable {α : Type}

def run [Limits] : Mutator α → List View → Store → Except Failure (α × List View) × Store
  | .done a, views, s => (.ok (a, views), s)
  | .fail failure, _, s => (.error failure, s)
  | .look next, views, s => run (next views s) views s
  | .write i edit next, views, s =>
    match views[i]?.map edit.apply with
    | none => run (next (.ok ())) views s
    | some (.ok view) => run (next (.ok ())) (views.set i view) s
    | some (.error failure) => run (next (.error failure)) views s
  | .nested names inner next, views, s =>
    let (result, s) := s.transact names fun views s => run inner views s
    run (next result) views s

theorem store_run [Limits] {s : Store} (h : s.inTransaction = true) (m : Mutator α)
    (views : List View) :
    (m.run views s).2 = s := by
  induction m generalizing views with
  | done a => simp only [run]
  | fail failure => simp only [run]
  | look next ih =>
    simp only [run]
    exact ih views s views
  | write i edit next ih =>
    simp only [run]
    split
    . exact ih _ _
    . exact ih _ _
    . exact ih _ _
  | nested names inner next _ ih =>
    -- The inner transaction is refused before its mutator is run.
    have hrefused : s.transact names (fun views s => run inner views s) =
        (.error .nestedTransaction, s) := by
      simp [Store.transact, Store.transactWith, Store.begin, h]
    simp only [run, hrefused]
    exact ih _ _

theorem map_origin_set {views : List View} {i : Nat} {v w : View} (hget : views[i]? = some v)
    (horigin : w.origin = v.origin) :
    (views.set i w).map View.origin = views.map View.origin := by
  apply List.ext_getElem?
  intro j
  rw [List.getElem?_map, List.getElem?_map, List.getElem?_set]
  split
  . next heq =>
    subst heq
    split
    . rw [hget, Option.map_some, Option.map_some, horigin]
    . next hlength =>
      rw [List.getElem?_eq_none (Nat.le_of_not_lt hlength)] at hget
      cases hget
  . rfl

theorem origin_run [Limits] {s s' : Store} {m : Mutator α} {views ws : List View} {a : α}
    (h : m.run views s = (.ok (a, ws), s')) : ws.map View.origin = views.map View.origin := by
  induction m generalizing views s with
  | done b =>
    simp only [run, Prod.mk.injEq, Except.ok.injEq] at h
    rw [← h.1.2]
  | fail failure => simp [run] at h
  | look next ih =>
    simp only [run] at h
    exact ih views s h
  | write i edit next ih =>
    simp only [run] at h
    split at h
    . exact ih _ h
    . next w heq =>
      rw [Option.map_eq_some_iff] at heq
      obtain ⟨v, hget, happly⟩ := heq
      rw [ih _ h]
      exact map_origin_set hget (ViewEdit.origin_of_apply happly)
    . exact ih _ h
  | nested names inner next _ ih =>
    simp only [run] at h
    exact ih _ h

end Mutator

end PageBinding
