import PageBinding.Proofs.Store.Delivery

/-!
This module contains how often a listener is called that may be subscribed several times. A
registration is found again by its listener, so a function that is called for the second time ends
another registration of the same listener, if there is one.
-/

namespace PageBinding

/--
A listener that leaves the store alone when it is called. It may fail.
-/
def Listener.IsQuiet (l : Listener) : Prop :=
  ∀ t c, l.respond t c = .nothing ∨ l.respond t c = .fail

namespace Store

variable {α : Type} {s : Store}

theorem call_of_isQuiet {l : Listener} (quiet : l.IsQuiet)
    (publish : Store → Transaction → Store) (t : Transaction) (s : Store) :
    call publish t s l = { s with deliveries := s.deliveries ++ [⟨l.label, t.id⟩] } := by
  rcases quiet t s.collections with hrespond | hrespond
  . simp only [call, hrespond, react]
  . simp only [call, hrespond, react]

theorem foldl_call_of_isQuiet {ls : List Listener} (quiet : ∀ l ∈ ls, l.IsQuiet)
    (publish : Store → Transaction → Store) (t : Transaction) (s : Store) :
    ls.foldl (call publish t) s =
      { s with deliveries := s.deliveries ++ ls.map fun l => ⟨l.label, t.id⟩ } := by
  induction ls generalizing s with
  | nil => simp
  | cons l rest ih =>
    rw [List.foldl_cons, call_of_isQuiet (quiet l List.mem_cons_self),
      ih fun m hm => quiet m (List.mem_cons_of_mem _ hm)]
    simp

structure Tells (s : Store) (committed : Option Transaction) (s' : Store) : Prop where
  published : s'.published = s.published ++ committed.toList
  deliveries : s'.deliveries = s.deliveries ++
    committed.toList.flatMap fun t => s.listeners.map fun l => ⟨l.label, t.id⟩
  listeners : s'.listeners = s.listeners

theorem tells_commit [Limits] (quiet : ∀ l ∈ s.listeners, l.IsQuiet) (views : List View) :
    ∃ committed, s.Tells committed (s.commit views) := by
  obtain ⟨hdeliveries, hlisteners, hpublished⟩ := takeOverAll_rest s.abort views
  rcases htaken : s.abort.takeOverAll views with ⟨committed, mid⟩
  rw [htaken] at hdeliveries hlisteners hpublished
  have hsame : mid.listeners = s.listeners := hlisteners
  rw [abort] at htaken
  cases committed with
  | none =>
    simp only [commit, settle, htaken]
    exact ⟨none, hpublished, by simpa [abort] using hdeliveries, hsame⟩
  | some t =>
    have hpublish : publish Limits.maxPublications mid t =
        { mid with deliveries := mid.deliveries ++ s.listeners.map fun l => ⟨l.label, t.id⟩ } := by
      obtain ⟨fuel, hfuel⟩ := Limits.exists_maxPublications_eq
      rw [← hsame] at quiet ⊢
      rw [hfuel]
      exact foldl_call_of_isQuiet quiet _ t mid
    simp only [commit, settle, htaken, hpublish]
    exact ⟨some t, hpublished, by simpa [abort] using hdeliveries, hsame⟩

theorem tells_perform [Limits] (quiet : ∀ l ∈ s.listeners, l.IsQuiet) (call : Call α) :
    ∃ committed, s.Tells committed (call.perform s).2 := by
  have hnothing : s.Tells none s := ⟨by simp, by simp, rfl⟩
  rcases call.perform_cases s with ⟨failure, heq⟩ | ⟨views, s', a, ws, -, -, heq⟩
  . rw [heq]
    exact ⟨none, hnothing⟩
  . rw [heq]
    exact tells_commit quiet ws

theorem Tells.heard {committed : Option Transaction} {s' : Store} (h : s.Tells committed s')
    (label : Text) :
    s'.heard label = s.heard label ++ committed.toList.flatMap fun t =>
      .replicate ((s.listeners.map Listener.label).count label) t.id := by
  have htold (ls : List Listener) (t : Transaction) :
      ((ls.map fun l => (⟨l.label, t.id⟩ : Delivery)).filter (·.label = label)).map
        Delivery.transactionId = .replicate ((ls.map Listener.label).count label) t.id := by
    induction ls with
    | nil => rfl
    | cons l rest ih =>
      by_cases heq : l.label = label
      . simp [heq, ih, List.replicate_succ]
      . simp [heq, ih]
  rw [Store.heard, h.deliveries, List.filter_append, List.map_append]
  cases committed with
  | none => rfl
  | some t =>
    simp only [Option.toList_some, List.flatMap_singleton, htold]
    rfl

end Store

structure Handle where
  listener : Listener
  isCalled : Bool

/--
A store with the functions that its registrations have returned, in order.
-/
structure Registry where
  store : Store
  handles : List Handle

namespace Registry

inductive Event (α : Type) where
  | subscribe (listener : Listener)
  /-- The function is called that the registration at a position has returned. -/
  | unsubscribe (i : Nat)
  | transact (call : Call α)

def Event.listener? {α : Type} : Event α → Option Listener
  | .subscribe listener => some listener
  | .unsubscribe _ | .transact _ => none

variable {α : Type}

def ofStore (s : Store) : Registry :=
  ⟨s, s.listeners.map fun listener => ⟨listener, false⟩⟩

def step [Limits] (w : Registry) : Event α → Registry
  | .subscribe listener => ⟨w.store.subscribe listener, w.handles ++ [⟨listener, false⟩]⟩
  | .unsubscribe i =>
    match w.handles[i]? with
    | none => w
    | some handle =>
      ⟨w.store.unsubscribe handle.listener.key, w.handles.set i { handle with isCalled := true }⟩
  | .transact call => ⟨(call.perform w.store).2, w.handles⟩

def run [Limits] (w : Registry) (events : List (Event α)) : Registry :=
  events.foldl step w

def registered (w : Registry) (key : Text) : Nat :=
  (w.store.listeners.map Listener.key).count key

def uncalled (w : Registry) (key : Text) : Nat :=
  w.handles.countP fun handle => handle.listener.key = key && !handle.isCalled

/--
Every listener is registered as often as there are functions for it that have not been called.
-/
def Balanced (w : Registry) : Prop :=
  ∀ key, w.registered key = w.uncalled key

def Strays (w : Registry) : Event α → Prop
  | .unsubscribe i =>
    ∃ handle, w.handles[i]? = some handle ∧ handle.isCalled = true ∧
      0 < w.registered handle.listener.key
  | .subscribe _ | .transact _ => False

section Step

variable [Limits] {w : Registry}

theorem registered_subscribe (w : Registry) (listener : Listener) (key : Text) :
    (w.step (.subscribe listener : Event α)).registered key =
      w.registered key + if listener.key = key then 1 else 0 := by
  simp [registered, step, Store.subscribe, List.count_singleton]

theorem uncalled_subscribe (w : Registry) (listener : Listener) (key : Text) :
    (w.step (.subscribe listener : Event α)).uncalled key =
      w.uncalled key + if listener.key = key then 1 else 0 := by
  simp [uncalled, step, List.countP_singleton]

theorem registered_unsubscribe {i : Nat} {handle : Handle}
    (h : w.handles[i]? = some handle)
    (key : Text) :
    (w.step (.unsubscribe i : Event α)).registered key =
      w.registered key - if handle.listener.key = key then 1 else 0 := by
  have herase : (w.store.unsubscribe handle.listener.key).listeners.map Listener.key =
      (w.store.listeners.map Listener.key).erase handle.listener.key := by
    rw [List.erase_eq_eraseP, List.eraseP_map]
    apply congrArg (List.map Listener.key)
    apply congrArg (List.eraseP · w.store.listeners)
    funext other
    rw [Bool.eq_iff_iff, Function.comp_apply, beq_iff_eq, decide_eq_true_eq]
    exact eq_comm
  simp only [registered, step, h, herase, List.count_erase, beq_iff_eq]

theorem uncalled_unsubscribe {i : Nat} {handle : Handle} (h : w.handles[i]? = some handle)
    (key : Text) :
    (w.step (.unsubscribe i : Event α)).uncalled key +
        (if handle.listener.key = key ∧ handle.isCalled = false then 1 else 0) =
      w.uncalled key := by
  obtain ⟨hi, hhandle⟩ := List.getElem?_eq_some_iff.mp h
  simp only [uncalled, step, h, List.countP_set hi, hhandle, Bool.not_true, Bool.and_false,
    Bool.false_eq_true, if_false, Nat.add_zero, Bool.and_eq_true, decide_eq_true_eq,
    Bool.not_eq_true']
  split
  . next hcounts =>
    apply Nat.sub_add_cancel
    apply List.countP_pos_iff.mpr
    exact ⟨handle, List.mem_of_getElem? h, by simp [hcounts]⟩
  . rfl

theorem step_unsubscribe_of_none {i : Nat} (h : w.handles[i]? = none) :
    w.step (.unsubscribe i : Event α) = w := by
  simp only [step, h]

theorem registered_transact (quiet : ∀ l ∈ w.store.listeners, l.IsQuiet) (call : Call α)
    (key : Text) : (w.step (.transact call)).registered key = w.registered key := by
  obtain ⟨committed, htells⟩ := Store.tells_perform quiet call
  simp only [registered, step, htells.listeners]

theorem listeners_step (quiet : ∀ l ∈ w.store.listeners, l.IsQuiet)
    {holds : Listener → Prop}
    (hw : ∀ l ∈ w.store.listeners, holds l)
    {event : Event α} (hevent : ∀ l ∈ event.listener?, holds l) :
    ∀ l ∈ (w.step event).store.listeners, holds l := by
  cases event with
  | subscribe listener =>
    intro l hl
    rcases List.mem_append.mp hl with hold | hnew
    . exact hw l hold
    . rw [List.mem_singleton.mp hnew]
      exact hevent listener rfl
  | unsubscribe i =>
    cases h : w.handles[i]? with
    | none =>
      rw [step_unsubscribe_of_none h]
      exact hw
    | some handle =>
      simp only [step, h]
      exact fun l hl => hw l (List.mem_of_mem_eraseP hl)
  | transact call =>
    obtain ⟨committed, htells⟩ := Store.tells_perform quiet call
    simp only [step, htells.listeners]
    exact hw

theorem registered_le_step (quiet : ∀ l ∈ w.store.listeners, l.IsQuiet)
    (h : ∀ key, w.registered key ≤ w.uncalled key) (event : Event α) (key : Text) :
    (w.step event).registered key ≤ (w.step event).uncalled key := by
  have hkey := h key
  cases event with
  | subscribe listener =>
    rw [registered_subscribe, uncalled_subscribe]
    omega
  | unsubscribe i =>
    cases hget : w.handles[i]? with
    | none =>
      rw [step_unsubscribe_of_none hget]
      exact hkey
    | some handle =>
      have huncalled := uncalled_unsubscribe (α := α) hget key
      rw [registered_unsubscribe hget]
      by_cases hsame : handle.listener.key = key
      . simp only [hsame, true_and, if_true] at huncalled ⊢
        split at huncalled
        . omega
        . omega
      . simp only [hsame, false_and, if_false] at huncalled ⊢
        omega
  | transact call =>
    rw [registered_transact quiet]
    exact hkey

/--
What keeps a store balanced is that no function is called again while its listener is registered.
-/
theorem balanced_step_iff (quiet : ∀ l ∈ w.store.listeners, l.IsQuiet) (h : w.Balanced)
    (event : Event α) : (w.step event).Balanced ↔ ¬ w.Strays event := by
  cases event with
  | subscribe listener =>
    refine ⟨fun _ => id, fun _ key => ?_⟩
    rw [registered_subscribe, uncalled_subscribe, h key]
  | unsubscribe i =>
    cases hget : w.handles[i]? with
    | none =>
      rw [step_unsubscribe_of_none hget]
      simp [Strays, hget, h]
    | some handle =>
      simp only [Strays, hget, Option.some.injEq, exists_eq_left', not_and, not_lt]
      have huncalled := uncalled_unsubscribe (α := α) hget
      constructor
      . intro hbalanced hcalled
        have hkey := hbalanced handle.listener.key
        have hbefore := huncalled handle.listener.key
        have hsame := h handle.listener.key
        rw [registered_unsubscribe hget] at hkey
        simp only [if_true, hcalled, reduceCtorEq, and_false, if_false] at hkey hbefore
        omega
      . intro hnone key
        have hbefore := huncalled key
        have hsame := h key
        rw [registered_unsubscribe hget]
        by_cases hkey : handle.listener.key = key
        . subst hkey
          cases hcalled : handle.isCalled with
          | false =>
            simp only [hcalled, and_self, if_true] at hbefore ⊢
            omega
          | true =>
            have hzero := hnone hcalled
            simp only [hcalled, reduceCtorEq, and_false, if_false, if_true] at hbefore ⊢
            omega
        . simp only [hkey, false_and, if_false] at hbefore ⊢
          omega
  | transact call =>
    refine ⟨fun _ => id, fun _ key => ?_⟩
    rw [registered_transact quiet]
    exact h key

end Step

def involved (s : Store) (events : List (Event α)) : List Listener :=
  s.listeners ++ events.filterMap Event.listener?

section Run

variable {s : Store} {events : List (Event α)}

theorem run_append_singleton [Limits] (w : Registry) (events : List (Event α)) (event : Event α) :
    w.run (events ++ [event]) = (w.run events).step event := by
  rw [run, List.foldl_append]
  rfl

theorem balanced_ofStore (s : Store) : (ofStore s).Balanced := by
  intro key
  rw [registered, uncalled, ofStore, List.countP_map, List.count, List.countP_map]
  apply List.countP_congr
  intro l _
  simp

variable (quiet : ∀ l ∈ involved s events, l.IsQuiet)
include quiet

variable [Limits]

theorem listeners_run {before after : List (Event α)} (h : events = before ++ after) :
    ∀ l ∈ ((ofStore s).run before).store.listeners, l ∈ involved s events := by
  have hrun {w : Registry} (hw : ∀ l ∈ w.store.listeners, l ∈ involved s events) :
      ∀ l ∈ (w.run before).store.listeners, l ∈ involved s events := by
    have hsubset : ∀ event ∈ before, ∀ l ∈ event.listener?, l ∈ involved s events := by
      rintro event hevent l hl
      apply List.mem_append_right
      rw [h]
      exact List.mem_filterMap.mpr ⟨event, List.mem_append_left _ hevent, hl⟩
    clear h
    unfold run
    induction before generalizing w with
    | nil => exact hw
    | cons event rest ih =>
      apply ih
      . exact listeners_step (fun l hl => quiet l (hw l hl)) hw (hsubset event List.mem_cons_self)
      . exact fun other hmem => hsubset other (List.mem_cons_of_mem _ hmem)
  exact hrun fun l hl => List.mem_append_left _ hl

theorem registered_le_run {before after : List (Event α)} (h : events = before ++ after)
    (key : Text) :
    ((ofStore s).run before).registered key ≤ ((ofStore s).run before).uncalled key := by
  induction before using List.reverseRecOn generalizing after key with
  | nil => exact (balanced_ofStore s key).le
  | append_singleton before event ih =>
    rw [List.append_assoc] at h
    rw [run_append_singleton]
    exact registered_le_step (fun l hl => quiet l (listeners_run quiet h l hl))
      (fun key => ih h key) event key

theorem balanced_run_iff :
    (∀ before after, events = before ++ after → ((ofStore s).run before).Balanced) ↔
      ∀ before event after, events = before ++ event :: after →
        ¬ ((ofStore s).run before).Strays event := by
  have hquiet {before after : List (Event α)} (h : events = before ++ after) :
      ∀ l ∈ ((ofStore s).run before).store.listeners, l.IsQuiet :=
    fun l hl => quiet l (listeners_run quiet h l hl)
  constructor
  . intro hbalanced before event after h
    rw [← balanced_step_iff (hquiet h) (hbalanced _ _ h), ← run_append_singleton]
    apply hbalanced _ after
    rw [h, List.append_assoc, List.singleton_append]
  . intro hstrays before
    induction before using List.reverseRecOn with
    | nil => exact fun _ _ => balanced_ofStore s
    | append_singleton before event ih =>
      intro after h
      rw [List.append_assoc, List.singleton_append] at h
      rw [run_append_singleton, balanced_step_iff (hquiet h) (ih _ h)]
      exact hstrays _ _ _ h

omit quiet in
theorem mem_of_isCalled {before : List (Event α)} {i : Nat} {handle : Handle}
    (h : ((ofStore s).run before).handles[i]? = some handle) (hcalled : handle.isCalled = true) :
    .unsubscribe i ∈ before := by
  induction before using List.reverseRecOn generalizing handle with
  | nil =>
    obtain ⟨listener, -, rfl⟩ := List.mem_map.mp (List.mem_of_getElem? h)
    cases hcalled
  | append_singleton before event ih =>
    rw [run_append_singleton] at h
    apply List.mem_append.mpr
    cases event with
    | subscribe listener =>
      simp only [step, List.getElem?_append] at h
      split at h
      . exact .inl (ih h hcalled)
      . rw [List.mem_singleton.mp (List.mem_of_getElem? h)] at hcalled
        cases hcalled
    | unsubscribe j =>
      by_cases hij : j = i
      . rw [hij]
        exact .inr (List.mem_singleton_self _)
      . left
        cases hget : ((ofStore s).run before).handles[j]? with
        | none =>
          rw [step_unsubscribe_of_none hget] at h
          exact ih h hcalled
        | some other =>
          simp only [step, hget, List.getElem?_set_ne hij] at h
          exact ih h hcalled
    | transact call => exact .inl (ih h hcalled)

theorem balanced_run_of_once
    (once : ∀ before i after, events = before ++ .unsubscribe i :: after → .unsubscribe i ∉ before)
    {before after : List (Event α)} (h : events = before ++ after) :
    ((ofStore s).run before).Balanced := by
  refine (balanced_run_iff quiet).mpr ?_ before after h
  intro before event after h hstrays
  cases event with
  | subscribe listener => cases hstrays
  | unsubscribe i =>
    obtain ⟨handle, hget, hcalled, -⟩ := hstrays
    exact once before i after h (mem_of_isCalled hget hcalled)
  | transact call => cases hstrays

/--
At each commit a quiet listener is called exactly as often as it is registered. That is at most as
often as there are functions for it that have not been called yet, and exactly as often all along if
and only if no function is called again while its listener is registered.
-/
theorem run_heard
    (apart : ∀ l ∈ involved s events, ∀ m ∈ involved s events, l.label = m.label ↔ l.key = m.key) :
    (∀ before call after, events = before ++ .transact call :: after →
      let w := (ofStore s).run before
      let w' := w.step (.transact call)
      ∃ committed : Option Transaction,
        w'.store.published = w.store.published ++ committed.toList ∧
          ∀ l ∈ involved s events, w'.store.heard l.label = w.store.heard l.label ++
            committed.toList.flatMap fun t => .replicate (w.registered l.key) t.id) ∧
    (∀ before after, events = before ++ after → ∀ key,
      ((ofStore s).run before).registered key ≤ ((ofStore s).run before).uncalled key) ∧
    ((∀ before after, events = before ++ after → ((ofStore s).run before).Balanced) ↔
      ∀ before event after, events = before ++ event :: after →
        ¬ ((ofStore s).run before).Strays event) := by
  refine ⟨?_, fun _ _ => registered_le_run quiet, balanced_run_iff quiet⟩
  intro before call after h w w'
  have hinvolved : ∀ l ∈ w.store.listeners, l ∈ involved s events := listeners_run quiet h
  obtain ⟨committed, htells⟩ :=
    Store.tells_perform (fun l hl => quiet l (hinvolved l hl)) call
  refine ⟨committed, htells.published, fun l hl => ?_⟩
  -- Who has the label of the listener is the listener.
  have hcount : (w.store.listeners.map Listener.label).count l.label = w.registered l.key := by
    rw [registered, List.count, List.countP_map, List.count, List.countP_map]
    apply List.countP_congr
    intro m hm
    simp only [Function.comp_apply, beq_iff_eq]
    exact apart m (hinvolved m hm) l hl
  rw [← hcount]
  exact htells.heard l.label

end Run

section Logger

open Store

/--
A listener is subscribed twice, and the function that it has got first is called some times.
-/
def loggerEvents (times : Nat) : List (Event Unit) :=
  [.subscribe logger, .subscribe logger] ++ .replicate times (.unsubscribe 0)

theorem quiet_and_apart (events : List (Event Unit))
    (h : involved (listenedStore []) events = [logger, logger]) :
    (∀ l ∈ involved (listenedStore []) events, l.IsQuiet) ∧
      ∀ l ∈ involved (listenedStore []) events, ∀ m ∈ involved (listenedStore []) events,
        l.label = m.label ↔ l.key = m.key := by
  have hlogger {l : Listener} (hl : l ∈ involved (listenedStore []) events) : l = logger := by
    rw [h] at hl
    simpa using hl
  constructor
  . intro l hl
    rw [hlogger hl]
    exact fun _ _ => .inl rfl
  . intro l hl m hm
    rw [hlogger hl, hlogger hm]
    exact iff_of_true rfl rfl

/--
A function that is called once ends one of two registrations.
-/
theorem run_heard_logger :
    ((ofStore (listenedStore [])).run (loggerEvents 1 ++ [.transact setFlag])).store.heard "log" =
      [flagged.id] := by
  have ⟨hquiet, hapart⟩ := quiet_and_apart (loggerEvents 1 ++ [.transact setFlag]) rfl
  obtain ⟨hheard, -⟩ := run_heard hquiet hapart
  obtain ⟨committed, hpublished, hcalls⟩ := hheard (loggerEvents 1) setFlag [] rfl
  have hcommitted : committed.toList = [flagged] := by
    rw [← List.nil_append committed.toList]
    exact hpublished.symm.trans (by decide +kernel)
  have hlog := hcalls logger List.mem_cons_self
  rw [hcommitted] at hlog
  rw [run_append_singleton]
  exact hlog

/--
A function that is called twice ends both of them, though the other one has a function of its own.
-/
theorem not_forall_heard_uncalled :
    ¬ ∀ (s : Store) (events : List (Event Unit)) (call : Call Unit) (l : Listener)
      (t : Transaction),
      (∀ m ∈ involved s events, m.IsQuiet) →
      (∀ m ∈ involved s events, ∀ n ∈ involved s events, m.label = n.label ↔ m.key = n.key) →
      l ∈ involved s events →
      let w := (ofStore s).run events
      let w' := w.step (.transact call)
      w'.store.published = w.store.published ++ [t] →
        w'.store.heard l.label = w.store.heard l.label ++ .replicate (w.uncalled l.key) t.id := by
  intro h
  have ⟨hquiet, hapart⟩ := quiet_and_apart (loggerEvents 2) rfl
  have hheard := h (listenedStore []) (loggerEvents 2) setFlag logger flagged hquiet hapart
    List.mem_cons_self (by decide +kernel)
  revert hheard
  decide +kernel

end Logger

end Registry

end PageBinding
