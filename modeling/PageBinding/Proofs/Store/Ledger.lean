import PageBinding.Proofs.Store.View
import PageBinding.Store

/-!
This module contains the ledger of a store, which is the part of it that only commits change, and
what a committed transaction says about the ledgers before and after it. Replaying the transactions
between two ledgers leads from the collections of the first one to those of the second one.
-/

namespace PageBinding

def Collections.under? (c : Collections) (name : CollectionName) (key : Text) : Option Entity :=
  (c.get name).get? key

structure Ledger where
  collections : Collections
  versions : Versions
  published : List Transaction

def Store.ledger (s : Store) : Ledger :=
  ⟨s.collections, s.versions, s.published⟩

theorem Versions.get_bump (v : Versions) (name other : CollectionName) :
    (v.bump name).get other = v.get other + if other = name then 1 else 0 := by
  cases name <;> cases other <;> rfl

theorem Collections.get_set (c : Collections) (name other : CollectionName)
    (collection : Collection Entity) :
    (c.set name collection).get other = if other = name then collection else c.get other := by
  by_cases h : other = name
  . rw [h, Collections.get_set_self, if_pos rfl]
  . rw [Collections.get_set_of_ne c collection h, if_neg h]

namespace Transaction

def touches (t : Transaction) (name : CollectionName) : Bool :=
  t.changes.any (·.collection = name)

/--
A transaction leads from one ledger to the next one: it lists every key under which the collections
depart from each other, each once, with what was there and what is there now.
-/
structure Leads (t : Transaction) (a b : Ledger) : Prop where
  published : b.published = a.published ++ [t]
  nodup : (t.changes.map fun change => (change.collection, change.key)).Nodup
  before : ∀ change ∈ t.changes,
    change.before = a.collections.under? change.collection change.key
  after : ∀ change ∈ t.changes,
    change.after = b.collections.under? change.collection change.key
  departs : ∀ change ∈ t.changes, Departs change.before change.after
  stays : ∀ name key, (∀ change ∈ t.changes, change.collection = name → change.key ≠ key) →
    Stays (a.collections.under? name key) (b.collections.under? name key)
  versions : ∀ name,
    b.versions.get name = a.versions.get name + if t.touches name then 1 else 0

end Transaction

inductive Ledger.History : Ledger → List Transaction → Ledger → Prop where
  | nil (a : Ledger) : History a [] a
  | cons {a b c : Ledger} {t : Transaction} {ts : List Transaction} :
      t.Leads a b → History b ts c → History a (t :: ts) c

def Change.apply (c : Collections) (change : Change) : Collections :=
  c.set change.collection <|
    match change.after with
    | some entity => (c.get change.collection).insert change.key entity
    | none => (c.get change.collection).erase change.key

def Collections.replay (c : Collections) (ts : List Transaction) : Collections :=
  ts.foldl (fun c t => t.changes.foldl Change.apply c) c

theorem Change.under?_apply (c : Collections) (change : Change) (name : CollectionName)
    (key : Text) :
    (change.apply c).under? name key =
      if name = change.collection ∧ key = change.key then change.after else c.under? name key := by
  unfold apply Collections.under?
  rw [Collections.get_set]
  by_cases hname : name = change.collection
  . rw [if_pos hname, hname]
    cases hafter : change.after with
    | some entity => simp [Collection.get?_insert]
    | none => simp [Collection.get?_erase]
  . rw [if_neg hname, if_neg (fun h => hname h.1)]

theorem Change.under?_foldl_apply {target : Collections} {changes : List Change}
    (h : ∀ change ∈ changes, change.after = target.under? change.collection change.key)
    (c : Collections) (name : CollectionName) (key : Text) :
    (changes.foldl apply c).under? name key =
      if ∃ change ∈ changes, name = change.collection ∧ key = change.key then
        target.under? name key
      else
        c.under? name key := by
  induction changes generalizing c with
  | nil => simp
  | cons change rest ih =>
    rw [List.foldl_cons, ih (fun other hmem => h other (List.mem_cons_of_mem _ hmem)),
      Change.under?_apply]
    have hchange := h change List.mem_cons_self
    by_cases hlisted : ∃ other ∈ rest, name = other.collection ∧ key = other.key
    . obtain ⟨other, hmem, heq⟩ := hlisted
      rw [if_pos ⟨other, hmem, heq⟩, if_pos ⟨other, List.mem_cons_of_mem _ hmem, heq⟩]
    . rw [if_neg hlisted]
      by_cases hhere : name = change.collection ∧ key = change.key
      . rw [if_pos hhere, if_pos ⟨change, List.mem_cons_self, hhere⟩, hchange, hhere.1, hhere.2]
      . rw [if_neg hhere, if_neg]
        rintro ⟨other, hmem, heq⟩
        rcases List.mem_cons.mp hmem with rfl | hrest
        . exact hhere heq
        . exact hlisted ⟨other, hrest, heq⟩

theorem Transaction.Leads.stays_apply {t : Transaction} {a b : Ledger} (h : t.Leads a b)
    {c : Collections}
    (hc : ∀ name key, Stays (c.under? name key) (a.collections.under? name key)) :
    ∀ name key, Stays ((t.changes.foldl Change.apply c).under? name key)
      (b.collections.under? name key) := by
  intro name key
  rw [Change.under?_foldl_apply h.after]
  split
  . exact Stays.refl _
  . next hlisted =>
    refine (hc name key).trans (h.stays name key ?_)
    intro change hmem hname hkey
    exact hlisted ⟨change, hmem, hname.symm, hkey.symm⟩

namespace Ledger.History

variable {a b c : Ledger} {ts us : List Transaction}

theorem single {t : Transaction} (h : t.Leads a b) : History a [t] b :=
  .cons h (.nil b)

theorem append (hab : History a ts b) (hbc : History b us c) : History a (ts ++ us) c := by
  induction hab with
  | nil a => exact hbc
  | cons hlead _ ih => exact .cons hlead (ih hbc)

theorem published_eq (h : History a ts b) : b.published = a.published ++ ts := by
  induction h with
  | nil a => simp
  | cons hlead _ ih => rw [ih, hlead.published, List.append_assoc, List.singleton_append]

theorem versions_eq (h : History a ts b) (name : CollectionName) :
    b.versions.get name = a.versions.get name + ts.countP (·.touches name) := by
  induction h with
  | nil a => simp
  | cons hlead _ ih =>
    rw [ih, hlead.versions, List.countP_cons]
    omega

theorem stays_replay (h : History a ts b) {c : Collections}
    (hc : ∀ name key, Stays (c.under? name key) (a.collections.under? name key)) :
    ∀ name key, Stays ((c.replay ts).under? name key) (b.collections.under? name key) := by
  induction h generalizing c with
  | nil a => exact hc
  | cons hlead _ ih => exact ih (hlead.stays_apply hc)

end Ledger.History

end PageBinding
