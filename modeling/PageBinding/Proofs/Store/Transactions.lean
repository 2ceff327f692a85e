import PageBinding.Proofs.Store.Mutator

/-!
This module contains what runs of transactions do to a store. Each one is committed as a whole or
not at all, and what they commit leads from one ledger to the next.
-/

namespace PageBinding

namespace Store

variable {α : Type} {s s' : Store} {names : List Text}

theorem begin_of_known (idle : s.inTransaction = false)
    (known : ∀ name ∈ names, (CollectionName.ofText? name).isSome) :
    ∃ views s', s.begin names = .ok (views, s') := by
  have hnone : names.filter (fun name => (CollectionName.ofText? name).isNone) = [] := by
    rw [List.filter_eq_nil_iff]
    intro name hmem
    simp [Option.isSome_iff_ne_none.mp (known name hmem)]
  simp [begin, idle, hnone]

theorem begin_of_unknown (idle : s.inTransaction = false)
    (unknown : ∃ name ∈ names, CollectionName.ofText? name = none) :
    ∃ failure, s.begin names = .error failure := by
  obtain ⟨name, hmem, hnone⟩ := unknown
  have hne : name ∈ names.filter (fun name => (CollectionName.ofText? name).isNone) := by
    simp [hmem, hnone]
  have hempty := List.ne_nil_of_mem hne
  rw [← List.isEmpty_eq_false_iff] at hempty
  simp [begin, idle, hempty]

end Store

structure Call (α : Type) where
  names : List Text
  mutator : Mutator α

variable [Limits]

namespace Call

variable {α : Type} {s : Store} {call : Call α}

def perform (call : Call α) (s : Store) : Except Failure α × Store :=
  s.transact call.names call.mutator.run

/--
A call has no effect on a store if it fails, if it names a collection that does not exist, or if the
views that it ends with do not differ from what they were.
-/
inductive Void (call : Call α) (s : Store) : Prop where
  | fails (failure : Failure) : (call.perform s).1 = .error failure → Void call s
  | unknown (name : Text) :
      name ∈ call.names → CollectionName.ofText? name = none → Void call s
  | same (views ws : List View) (s₁ s₂ : Store) (a : α) :
      s.begin call.names = .ok (views, s₁) → call.mutator.run views s₁ = (.ok (a, ws), s₂) →
        (∀ w ∈ ws, ∀ key, ¬ w.Differs key) → Void call s

theorem perform_cases (call : Call α) (s : Store) :
    (∃ failure, call.perform s = (.error failure, s)) ∨
      ∃ views s' a ws, s.begin call.names = .ok (views, s') ∧
        call.mutator.run views s' = (.ok (a, ws), s') ∧ call.perform s = (.ok a, s.commit ws) :=
  Store.transactWith_cases _ s call.names call.mutator.run fun views _ hunderWay =>
    Mutator.store_run hunderWay call.mutator views

theorem perform_of_void (idle : s.inTransaction = false) (h : call.Void s) :
    (call.perform s).2 = s := by
  rcases call.perform_cases s with ⟨failure, heq⟩ | ⟨views, s', a, ws, hbegin, hrun, heq⟩
  . rw [heq]
  cases h with
  | fails failure hfails =>
    rw [heq] at hfails
    cases hfails
  | unknown name hmem hnone =>
    obtain ⟨failure, herror⟩ := Store.begin_of_unknown idle ⟨name, hmem, hnone⟩
    rw [hbegin] at herror
    cases herror
  | same views' ws' s₁ s₂ a' hbegin' hrun' hsame =>
    rw [hbegin] at hbegin'
    cases hbegin'
    rw [hrun] at hrun'
    cases hrun'
    rw [heq, Store.commit_of_changes_eq_nil fun w hw => View.changes_eq_nil_iff.mpr (hsame w hw)]
    exact Store.abort_of_begin hbegin

theorem history_perform (call : Call α) (fair : ∀ listener ∈ s.listeners, listener.Fair)
    (distinct : call.names.Nodup) :
    (∃ ts, s.ledger.History ts (call.perform s).2.ledger) ∧ s.Follows (call.perform s).2 := by
  rcases call.perform_cases s with ⟨failure, heq⟩ | ⟨views, s', a, ws, hbegin, hrun, heq⟩
  . rw [heq]
    exact ⟨⟨[], .nil _⟩, .refl s⟩
  . have hviewed := ((Store.begin_eq_ok hbegin).2.2 distinct).of_origin (Mutator.origin_run hrun)
    have hcommit := Store.history_commit hviewed fair
    rw [Store.abort_of_begin hbegin] at hcommit
    rw [heq]
    exact hcommit

end Call

namespace Store

variable {α : Type}

def runCalls (s : Store) (calls : List (Call α)) : Store :=
  calls.foldl (fun s call => (call.perform s).2) s

theorem history_runCalls {s : Store} {calls : List (Call α)}
    (fair : ∀ listener ∈ s.listeners, listener.Fair)
    (distinct : ∀ call ∈ calls, call.names.Nodup) :
    (∃ ts, s.ledger.History ts (s.runCalls calls).ledger) ∧ s.Follows (s.runCalls calls) := by
  unfold runCalls
  induction calls generalizing s with
  | nil => exact ⟨⟨[], .nil _⟩, .refl s⟩
  | cons call rest ih =>
    obtain ⟨⟨ts, hts⟩, hfollows⟩ := call.history_perform fair (distinct call List.mem_cons_self)
    obtain ⟨⟨us, hus⟩, hrest⟩ := ih
      (hfollows.fair fair)
      (fun other hmem => distinct other (List.mem_cons_of_mem _ hmem))
    exact ⟨⟨ts ++ us, hts.append hus⟩, hfollows.trans hrest⟩

end Store

end PageBinding
