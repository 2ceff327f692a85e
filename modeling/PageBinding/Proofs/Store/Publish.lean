import PageBinding.Proofs.Store.Commit

/-!
This module contains what a publication does to a store. Listeners that only observe leave the
ledger as it is; others lead it on by transactions of their own.
-/

namespace PageBinding

inductive Reaction.Does {L : Type} : Reaction L → Step L → Prop where
  | now {step : Step L} {next : Except Failure Unit → Collections → Reaction L} :
      Does (.step step next) step
  | later {step other : Step L} {next : Except Failure Unit → Collections → Reaction L}
      {result : Except Failure Unit} {c : Collections} :
      Does (next result c) other → Does (.step step next) other

namespace Listener

/--
All that a listener may come to do is of some kind, and so is all that the listeners may do that it
may subscribe.
-/
inductive Always (good : Step Listener → Prop) : Listener → Prop where
  | intro {l : Listener} :
      (∀ t c step, (l.respond t c).Does step → good step) →
      (∀ t c m, (l.respond t c).Does (.subscribe m) → Always good m) → Always good l

/--
The transactions that a listener runs are on distinct collections and change nothing but what is in
their views.
-/
def Fair (listener : Listener) : Prop :=
  listener.Always fun step => ∀ names mutate, step = .transact names mutate →
    names.Nodup ∧ ∀ views ws, mutate views = .ok ws → ws.map View.origin = views.map View.origin

def Observes (listener : Listener) : Prop :=
  listener.Always fun step => ∀ names mutate, step ≠ .transact names mutate

namespace Always

variable {good good' : Step Listener → Prop} {l m : Listener} {t : Transaction} {c : Collections}

theorem good_of_does (h : l.Always good) {step : Step Listener}
    (hdoes : (l.respond t c).Does step) : good step := by
  cases h with
  | intro hgood _ => exact hgood t c step hdoes

theorem of_subscribe (h : l.Always good) (hdoes : (l.respond t c).Does (.subscribe m)) :
    m.Always good := by
  cases h with
  | intro _ hsubscribed => exact hsubscribed t c m hdoes

theorem mono (h : l.Always good) (himp : ∀ step, good step → good' step) : l.Always good' := by
  induction h with
  | intro hgood _ ih =>
    exact .intro (fun t c step hdoes => himp step (hgood t c step hdoes)) ih

theorem of_not_does (h : ∀ t c step, ¬ (l.respond t c).Does step) : l.Always good :=
  .intro (fun t c step hdoes => absurd hdoes (h t c step))
    fun t c m hdoes => absurd hdoes (h t c (.subscribe m))

end Always

end Listener

namespace Store

variable {s : Store}

section Transact

variable {α : Type} {publish : Store → Transaction → Store}

theorem transactWith_cases (publish : Store → Transaction → Store) (s : Store) (names : List Text)
    (mutate : List View → Store → Except Failure (α × List View) × Store)
    (hmutate : ∀ views s, s.inTransaction = true → (mutate views s).2 = s) :
    (∃ failure, s.transactWith publish names mutate = (.error failure, s)) ∨
      ∃ views s' a ws, s.begin names = .ok (views, s') ∧ mutate views s' = (.ok (a, ws), s') ∧
        s.transactWith publish names mutate = (.ok a, s.settle publish ws) := by
  unfold transactWith
  cases hbegin : s.begin names with
  | error failure => exact .inl ⟨failure, rfl⟩
  | ok begun =>
    obtain ⟨views, s'⟩ := begun
    obtain ⟨rfl, habort, -⟩ := begin_eq_ok hbegin
    have hstore := hmutate views { s with inTransaction := true } rfl
    rcases hresult : mutate views { s with inTransaction := true } with ⟨failure | ⟨a, ws⟩, s''⟩
    . rw [hresult] at hstore
      obtain rfl : s'' = { s with inTransaction := true } := hstore
      simp only [hresult, habort]
      exact .inl ⟨_, rfl⟩
    . rw [hresult] at hstore
      obtain rfl : s'' = { s with inTransaction := true } := hstore
      simp only [hresult]
      exact .inr ⟨views, _, a, ws, rfl, hresult, rfl⟩

theorem take_transact_cases (publish : Store → Transaction → Store) (s : Store) (names : List Text)
    (mutate : List View → Except Failure (List View)) :
    (∃ failure, s.take publish (.transact names mutate) = (.error failure, s)) ∨
      ∃ views s' ws, s.begin names = .ok (views, s') ∧ mutate views = .ok ws ∧
        s.take publish (.transact names mutate) = (.ok (), s.settle publish ws) := by
  rcases transactWith_cases publish s names (fun views s => ((mutate views).map ((), ·), s))
    (fun _ _ _ => rfl) with hfails | ⟨views, s', a, ws, hbegin, hmutate, heq⟩
  . exact .inl hfails
  . refine .inr ⟨views, s', ws, hbegin, ?_, heq⟩
    cases hviews : mutate views with
    | error failure => simp [hviews, Except.map] at hmutate
    | ok ws' => simpa [hviews, Except.map] using hmutate

theorem settle_eq_of_begin {names : List Text} {views : List View} {s' : Store}
    (h : s.begin names = .ok (views, s')) (ws : List View) :
    s.settle publish ws =
      match s.takeOverAll ws with
      | (some t, s) => publish s t
      | (none, s) => s := by
  have habort : { s with inTransaction := false } = s := abort_of_begin h
  rewrite [settle, habort]
  rfl

theorem holds_settle_of_begin {holds : Store → Prop}
    (hpublish : ∀ s t, holds s → holds (publish s t)) {names : List Text} {views ws : List View}
    {s' : Store} (hbegin : s.begin names = .ok (views, s')) (h : holds (s.takeOverAll ws).2) :
    holds (s.settle publish ws) := by
  rw [settle_eq_of_begin hbegin]
  split
  . next heq =>
    rw [heq] at h
    exact hpublish _ _ h
  . next heq =>
    rw [heq] at h
    exact h

end Transact

/--
What it takes for a property of stores to hold after a publication: it survives every step of a
listener.
-/
structure Survives (holds : Store → Prop) (good : Listener → Prop) : Prop where
  listeners : ∀ s, holds s → ∀ listener ∈ s.listeners, good listener
  deliver : ∀ s deliveries, holds s → holds { s with deliveries }
  unsubscribe : ∀ s key, holds s → holds (s.unsubscribe key)
  subscribe : ∀ s listener t c other, holds s → good listener →
    (listener.respond t c).Does (.subscribe other) → holds (s.subscribe other)
  takeOver : ∀ s listener t c names mutate views s' ws, holds s → good listener →
    (listener.respond t c).Does (.transact names mutate) → s.begin names = .ok (views, s') →
      mutate views = .ok ws → holds (s.takeOverAll ws).2

namespace Survives

variable {holds : Store → Prop} {good : Listener → Prop}

section Call

variable {publish : Store → Transaction → Store}

theorem take (survives : Survives holds good)
    (hpublish : ∀ s t, holds s → holds (publish s t)) (h : holds s) {listener : Listener}
    (hgood : good listener) {t : Transaction} {c : Collections} {step : Step Listener}
    (hdoes : (listener.respond t c).Does step) : holds (s.take publish step).2 := by
  cases step with
  | subscribe other => exact survives.subscribe s listener t c other h hgood hdoes
  | unsubscribe key => exact survives.unsubscribe s key h
  | transact names mutate =>
    rcases take_transact_cases publish s names mutate with
      ⟨failure, heq⟩ | ⟨views, s', ws, hbegin, hmutate, heq⟩
    . rw [heq]
      exact h
    . have htaken :=
        survives.takeOver s listener t c names mutate views s' ws h hgood hdoes hbegin hmutate
      rw [heq]
      exact holds_settle_of_begin hpublish hbegin htaken

theorem react (survives : Survives holds good)
    (hpublish : ∀ s t, holds s → holds (publish s t)) {listener : Listener}
    (hgood : good listener) {t : Transaction} {c : Collections} {response : Response}
    (hdoes : ∀ step, response.Does step → (listener.respond t c).Does step) (key : Text)
    (h : holds s) : holds (react publish key response s) := by
  induction response generalizing s with
  | nothing => exact h
  | fail => exact h
  | leave => exact survives.unsubscribe s key h
  | step step next ih =>
    exact ih _ _ (fun other hother => hdoes other (.later hother))
      (survives.take hpublish h hgood (hdoes step .now))

theorem call (survives : Survives holds good)
    (hpublish : ∀ s t, holds s → holds (publish s t)) (t : Transaction) (h : holds s)
    {listener : Listener} (hgood : good listener) : holds (call publish t s listener) :=
  survives.react hpublish hgood (fun _ => id) listener.key
    (survives.deliver s (s.deliveries ++ [⟨listener.label, t.id⟩]) h)

theorem foldl_call (survives : Survives holds good)
    (hpublish : ∀ s t, holds s → holds (publish s t)) (t : Transaction) {ls : List Listener}
    (hgood : ∀ listener ∈ ls, good listener) (h : holds s) :
    holds (ls.foldl (Store.call publish t) s) := by
  induction ls generalizing s with
  | nil => exact h
  | cons listener rest ih =>
    apply ih
    . exact fun other hmem => hgood other (List.mem_cons_of_mem _ hmem)
    . exact survives.call hpublish t h (hgood listener List.mem_cons_self)

end Call

-- The listeners are those from the beginning, whoever comes or leaves while they are called.
theorem publish (survives : Survives holds good) (fuel : Nat) {s : Store} (t : Transaction)
    (h : holds s) : holds (publish fuel s t) := by
  induction fuel generalizing s t with
  | zero => exact h
  | succ fuel ih =>
    exact survives.foldl_call (fun s t => ih t) t (survives.listeners s h) h

end Survives

theorem always_subscribe {good : Step Listener → Prop} {m : Listener}
    (h : ∀ listener ∈ s.listeners, listener.Always good) (hm : m.Always good) :
    ∀ listener ∈ (s.subscribe m).listeners, listener.Always good := by
  intro listener hmem
  rcases List.mem_append.mp hmem with hold | hnew
  . exact h listener hold
  . rw [List.mem_singleton.mp hnew]
    exact hm

theorem always_unsubscribe {good : Step Listener → Prop} {key : Text}
    (h : ∀ listener ∈ s.listeners, listener.Always good) :
    ∀ listener ∈ (s.unsubscribe key).listeners, listener.Always good :=
  fun listener hmem => h listener (List.mem_of_mem_eraseP hmem)

/--
A store has come out of another one, and if a transaction was under way it still is. Listeners may
have left, and others may have come that those have subscribed.
-/
structure Follows (s s' : Store) : Prop where
  instances : s'.instances = s.instances
  inTransaction : s'.inTransaction = s.inTransaction
  listeners : ∀ good, (∀ listener ∈ s.listeners, listener.Always good) →
    ∀ listener ∈ s'.listeners, listener.Always good

namespace Follows

variable {s s' s'' : Store}

theorem refl (s : Store) : s.Follows s :=
  ⟨rfl, rfl, fun _ h => h⟩

theorem observes (h : s.Follows s') (observe : ∀ listener ∈ s.listeners, listener.Observes) :
    ∀ listener ∈ s'.listeners, listener.Observes :=
  h.listeners _ observe

theorem fair (h : s.Follows s') (fair : ∀ listener ∈ s.listeners, listener.Fair) :
    ∀ listener ∈ s'.listeners, listener.Fair :=
  h.listeners _ fair

theorem trans (h : s.Follows s') (h' : s'.Follows s'') : s.Follows s'' := by
  constructor
  . rw [h'.instances, h.instances]
  . rw [h'.inTransaction, h.inTransaction]
  . exact fun good hgood => h'.listeners good (h.listeners good hgood)

theorem deliver (h : s.Follows s') (deliveries : List Delivery) :
    s.Follows { s' with deliveries } :=
  ⟨h.instances, h.inTransaction, h.listeners⟩

theorem unsubscribe (h : s.Follows s') (key : Text) : s.Follows (s'.unsubscribe key) :=
  ⟨h.instances, h.inTransaction,
    fun good hall => always_unsubscribe (h.listeners good hall)⟩

theorem subscribe (h : s.Follows s') {listener : Listener}
    (hgood : ∀ good, (∀ other ∈ s.listeners, other.Always good) → listener.Always good) :
    s.Follows (s'.subscribe listener) := by
  refine ⟨h.instances, h.inTransaction, fun good hall => ?_⟩
  exact always_subscribe (h.listeners good hall) (hgood good hall)

theorem takeOverAll (s : Store) (views : List View) : s.Follows (s.takeOverAll views).2 := by
  rcases takeOverAll_cases s views with heq | ⟨c, v, t, -, heq⟩
  . rw [heq]
    exact refl s
  . rw [heq]
    exact ⟨rfl, rfl, fun _ h => h⟩

end Follows

theorem history_of_outcome {s : Store} {views : List View} {result : Option Transaction × Store}
    (h : s.Outcome views result) : s.ledger.History result.1.toList result.2.ledger := by
  cases h with
  | nothing => exact .nil _
  | committed _ _ hleads => exact .single hleads

/--
What the listeners of a publication may make of a store. Those that only observe leave the ledger as
it is, and transactions that others commit lead it on.
-/
structure Publishes (s s' : Store) : Prop where
  follows : s.Follows s'
  observed : (∀ listener ∈ s.listeners, listener.Observes) → s'.ledger = s.ledger
  fair : (∀ listener ∈ s.listeners, listener.Fair) → ∃ ts, s.ledger.History ts s'.ledger

theorem Publishes.refl (s : Store) : s.Publishes s :=
  ⟨.refl s, fun _ => rfl, fun _ => ⟨[], .nil _⟩⟩

theorem survives_follows (s : Store) :
    Survives s.Follows fun listener =>
      ∀ good, (∀ other ∈ s.listeners, other.Always good) → listener.Always good where
  listeners := fun _ h listener hmem good hall => h.listeners good hall listener hmem
  deliver := fun _ deliveries h => h.deliver deliveries
  unsubscribe := fun _ key h => h.unsubscribe key
  subscribe := fun _ _ _ _ _ h hgood hdoes =>
    h.subscribe fun good hall => (hgood good hall).of_subscribe hdoes
  takeOver := fun s' _ _ _ _ _ _ _ ws h _ _ _ _ => h.trans (.takeOverAll s' ws)

theorem survives_ledger (s : Store) :
    Survives (fun s' => (∀ listener ∈ s'.listeners, listener.Observes) ∧ s'.ledger = s.ledger)
      Listener.Observes where
  listeners := fun _ h => h.1
  deliver := fun _ _ h => h
  unsubscribe := fun _ _ h => ⟨always_unsubscribe h.1, h.2⟩
  subscribe := fun _ _ _ _ _ h hobserves hdoes =>
    ⟨always_subscribe h.1 (hobserves.of_subscribe hdoes), h.2⟩
  takeOver := fun _ _ _ _ names mutate _ _ _ _ hobserves hdoes _ _ =>
    absurd rfl (hobserves.good_of_does hdoes names mutate)

theorem survives_history (s : Store) :
    Survives
      (fun s' => (∀ listener ∈ s'.listeners, listener.Fair) ∧ ∃ ts, s.ledger.History ts s'.ledger)
      Listener.Fair where
  listeners := fun _ h => h.1
  deliver := fun _ _ h => h
  unsubscribe := fun _ _ h => ⟨always_unsubscribe h.1, h.2⟩
  subscribe := fun _ _ _ _ _ h hfair hdoes =>
    ⟨always_subscribe h.1 (hfair.of_subscribe hdoes), h.2⟩
  takeOver := by
    rintro s' listener t c names mutate views s₁ ws ⟨hall, ts, hts⟩ hfair hdoes hbegin hmutate
    obtain ⟨hnodup, horigin⟩ := hfair.good_of_does hdoes names mutate rfl
    obtain ⟨-, -, hviewed⟩ := begin_eq_ok hbegin
    have houtcome :=
      outcome_takeOverAll ((hviewed hnodup).of_origin (horigin views ws hmutate))
    refine ⟨?_, _, hts.append (history_of_outcome houtcome)⟩
    exact (Follows.takeOverAll s' ws).listeners _ hall

theorem publishes_publish (fuel : Nat) (s : Store) (t : Transaction) :
    s.Publishes (publish fuel s t) := by
  constructor
  . exact (survives_follows s).publish fuel t (.refl s)
  . intro observe
    exact ((survives_ledger s).publish fuel t ⟨observe, rfl⟩).2
  . intro fair
    exact ((survives_history s).publish fuel t ⟨fair, [], .nil _⟩).2

variable {s : Store} {views : List View}

theorem commit_of_changes_eq_nil [Limits] (h : ∀ view ∈ views, view.changes = []) :
    s.commit views = s.abort := by
  have hnone : views.flatMap View.changes = [] := List.flatMap_eq_nil_iff.mpr h
  simp [commit, settle, takeOverAll, hnone, abort]

theorem publishes_commit [Limits] (s : Store) (views : List View) :
    (s.abort.takeOverAll views).2.Publishes (s.commit views) := by
  rcases hresult : s.abort.takeOverAll views with ⟨t, mid⟩
  rw [abort] at hresult
  simp only [commit, settle, hresult]
  cases t with
  | some t => exact publishes_publish Limits.maxPublications mid t
  | none => exact .refl mid

theorem outcome_commit [Limits] (viewed : s.collections.Viewed views) :
    ∃ t mid, s.abort.Outcome views (t, mid) ∧ mid.Publishes (s.commit views) :=
  ⟨_, _, outcome_takeOverAll (s := s.abort) viewed, publishes_commit s views⟩

theorem Follows.of_outcome {result : Option Transaction × Store} (h : s.Outcome views result) :
    s.Follows result.2 := by
  cases h with
  | nothing => exact .refl s
  | committed _ htakes _ =>
    obtain ⟨c, v, p, i, rfl⟩ := htakes.rest
    exact ⟨rfl, rfl, fun _ h => h⟩

theorem history_commit [Limits] (viewed : s.collections.Viewed views)
    (fair : ∀ listener ∈ s.listeners, listener.Fair) :
    (∃ ts, s.ledger.History ts (s.commit views).ledger) ∧ s.abort.Follows (s.commit views) := by
  obtain ⟨t, mid, houtcome, hpublishes⟩ := outcome_commit viewed
  have hfollows := Follows.of_outcome houtcome
  obtain ⟨ts, hts⟩ := hpublishes.fair (hfollows.fair fair)
  have hhistory := history_of_outcome houtcome
  exact ⟨⟨_, hhistory.append hts⟩, hfollows.trans hpublishes.follows⟩

end Store

end PageBinding
