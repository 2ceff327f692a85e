import Mathlib
import PageBinding.Proofs.Expression.Literal
import PageBinding.Proofs.Store.Transactions

/-!
This module contains what runs of transactions publish, and what the listeners of a store are told
when some of them run transactions of their own. What is published tells all that has become of the
collections. A listener that stays hears of every transaction once. It may hear of a later one
first, for the publication of a transaction that is committed by a listener comes before the rest of
the one that the listener has been called for.
-/

namespace PageBinding

namespace Listener

def AfterObservers (l : Listener) (listeners : List Listener) : Prop :=
  ∀ other, [other, l].Sublist listeners → other.Observes

def Spares (label : Text) (l : Listener) : Prop :=
  l.Always fun step => ∀ m, step = .subscribe m → m.label ≠ label

end Listener

namespace Store

def heard (s : Store) (label : Text) : List Text :=
  (s.deliveries.filter (·.label = label)).map Delivery.transactionId

section Settle

variable (publish : Store → Transaction → Store) (settles : Store → Transaction → Bool)

def viewsSettle (s : Store) (views : List View) : Bool :=
  match { s with inTransaction := false }.takeOverAll views with
  | (some t, s) => settles s t
  | (none, _) => true

def takeSettles (s : Store) : Step Listener → Bool
  | .subscribe _ | .unsubscribe _ => true
  | .transact names mutate =>
    match s.begin names with
    | .error _ => true
    | .ok (views, s) =>
      match mutate views with
      | .error _ => true
      | .ok views => s.viewsSettle settles views

def reactSettles (key : Text) : Response → Store → Bool
  | .nothing, _ | .fail, _ | .leave, _ => true
  | .step step next, s =>
    s.takeSettles settles step &&
      let (result, s) := s.take publish step
      reactSettles key (next result s.collections) s

def settlesAll (t : Transaction) (s : Store) : List Listener → Bool
  | [] => true
  | listener :: rest =>
    let told := { s with deliveries := s.deliveries ++ [⟨listener.label, t.id⟩] }
    reactSettles publish settles listener.key (listener.respond t s.collections) told &&
      settlesAll t (call publish t s listener) rest

end Settle

def settles : Nat → Store → Transaction → Bool
  | 0, _, _ => false
  | fuel + 1, s, t => settlesAll (publish fuel) (settles fuel) t s s.listeners

theorem settlesAll_append (publish : Store → Transaction → Store)
    (settles : Store → Transaction → Bool) (t : Transaction) (s : Store) (ms ns : List Listener) :
    settlesAll publish settles t s (ms ++ ns) =
      (settlesAll publish settles t s ms &&
        settlesAll publish settles t (ms.foldl (call publish t) s) ns) := by
  induction ms generalizing s with
  | nil => rfl
  | cons m rest ih =>
    rw [List.cons_append, settlesAll, settlesAll, ih, Bool.and_assoc, List.foldl_cons]

theorem takeOverAll_rest (s : Store) (views : List View) :
    (s.takeOverAll views).2.deliveries = s.deliveries ∧
      (s.takeOverAll views).2.listeners = s.listeners ∧
      (s.takeOverAll views).2.published = s.published ++ (s.takeOverAll views).1.toList := by
  rcases takeOverAll_cases s views with heq | ⟨c, v, t, -, heq⟩
  . simp [heq]
  . simp [heq]

/--
What it takes for a property of stores to hold after any calls: it survives what listeners do, and
no commit ends it.
-/
structure Endures (holds : Store → Prop) (good : Listener → Prop) : Prop where
  listeners : ∀ s, holds s → ∀ listener ∈ s.listeners, good listener
  deliver : ∀ s deliveries, holds s → holds { s with deliveries }
  unsubscribe : ∀ s key, holds s → holds (s.unsubscribe key)
  subscribe : ∀ s listener t c other, holds s → good listener →
    (listener.respond t c).Does (.subscribe other) → holds (s.subscribe other)
  takeOver : ∀ s views, holds s → holds (s.takeOverAll views).2

namespace Endures

variable {holds : Store → Prop} {good : Listener → Prop} {α : Type}

theorem survives (endures : Endures holds good) : Survives holds good where
  listeners := endures.listeners
  deliver := endures.deliver
  unsubscribe := endures.unsubscribe
  subscribe := endures.subscribe
  takeOver := fun s _ _ _ _ _ _ _ ws h _ _ _ _ => endures.takeOver s ws h

theorem perform [Limits] (endures : Endures holds good) {s : Store} (call : Call α) (h : holds s) :
    holds (call.perform s).2 := by
  rcases call.perform_cases s with ⟨failure, heq⟩ | ⟨views, s', a, ws, hbegin, -, heq⟩
  . rw [heq]
    exact h
  . rw [heq]
    exact holds_settle_of_begin (fun _ t => endures.survives.publish Limits.maxPublications t)
      hbegin (endures.takeOver s ws h)

theorem runCalls [Limits] (endures : Endures holds good) {s : Store} (calls : List (Call α))
    (h : holds s) : holds (s.runCalls calls) := by
  unfold Store.runCalls
  induction calls generalizing s with
  | nil => exact h
  | cons call rest ih => exact ih (endures.perform call h)

end Endures

/--
At most one listener of a store has the label of a listener. Those that stand before it are some of
those that have stood before it in a list, and nobody subscribes one of its label.
-/
structure Attends (l : Listener) (listeners : List Listener) (s : Store) : Prop where
  once : (s.listeners.map Listener.label).count l.label ≤ 1
  behind : ∀ m, [m, l].Sublist s.listeners → [m, l].Sublist listeners
  spares : ∀ m ∈ s.listeners, m.Spares l.label

namespace Attends

variable {l : Listener} {listeners : List Listener} {s s' : Store}

theorem start (labels : (s.listeners.map Listener.label).Nodup)
    (spares : ∀ m ∈ s.listeners, m.Spares l.label) : s.Attends l s.listeners :=
  ⟨List.nodup_iff_count_le_one.mp labels l.label, fun _ => id, spares⟩

theorem congr (h : s.Attends l listeners) (hlisteners : s'.listeners = s.listeners) :
    s'.Attends l listeners := by
  obtain ⟨once, behind, spares⟩ := h
  rw [← hlisteners] at once behind spares
  exact ⟨once, behind, spares⟩

end Attends

theorem sublist_of_sublist_append_singleton {l m other : Listener} {listeners : List Listener}
    (hne : other ≠ l) (h : [m, l].Sublist (listeners ++ [other])) : [m, l].Sublist listeners := by
  obtain ⟨start, rest, hsplit, hstart, hrest⟩ := List.sublist_append_iff.mp h
  rcases List.sublist_singleton.mp hrest with rfl | rfl
  . rwa [hsplit, List.append_nil]
  . have hlast := congrArg List.getLast? hsplit
    simp at hlast
    exact absurd hlast.symm hne

theorem endures_attends (l : Listener) (listeners : List Listener) :
    Endures (Attends l listeners) (Listener.Spares l.label) where
  listeners := fun _ h => h.spares
  deliver := fun _ _ h => h.congr rfl
  unsubscribe := by
    rintro s key ⟨once, behind, spares⟩
    have hsublist : (s.unsubscribe key).listeners.Sublist s.listeners := List.eraseP_sublist
    refine ⟨((hsublist.map _).count_le _).trans once, ?_, always_unsubscribe spares⟩
    exact fun m hm => behind m (hm.trans hsublist)
  subscribe := by
    rintro s listener t c other ⟨once, behind, spares⟩ hspares hdoes
    have hlabel := hspares.good_of_does hdoes other rfl
    refine ⟨?_, ?_, always_subscribe spares (hspares.of_subscribe hdoes)⟩
    . simp only [subscribe, List.map_append, List.map_cons, List.map_nil, List.count_append,
        List.count_singleton, beq_iff_eq, hlabel, if_false, Nat.add_zero]
      exact once
    . intro m hm
      refine behind m (sublist_of_sublist_append_singleton ?_ hm)
      rintro rfl
      exact hlabel rfl
  takeOver := fun s views h => h.congr (takeOverAll_rest s views).2.1

theorem endures_gone (l : Listener) (listeners : List Listener) :
    Endures (fun s => s.Attends l listeners ∧ l ∉ s.listeners) (Listener.Spares l.label) where
  listeners := fun _ h => h.1.spares
  deliver := fun s deliveries h => ⟨(endures_attends l listeners).deliver s deliveries h.1, h.2⟩
  unsubscribe := fun s key h => ⟨(endures_attends l listeners).unsubscribe s key h.1,
    fun hmem => h.2 (List.mem_of_mem_eraseP hmem)⟩
  subscribe := by
    rintro s listener t c other ⟨hattends, hgone⟩ hspares hdoes
    refine ⟨(endures_attends l listeners).subscribe s listener t c other hattends hspares hdoes, ?_⟩
    intro hmem
    rcases List.mem_append.mp hmem with hold | hnew
    . exact hgone hold
    . have hlabel := hspares.good_of_does hdoes other rfl
      rw [List.mem_singleton.mp hnew] at hlabel
      exact hlabel rfl
  takeOver := by
    rintro s views ⟨hattends, hgone⟩
    refine ⟨(endures_attends l listeners).takeOver s views hattends, ?_⟩
    rwa [(takeOverAll_rest s views).2.1]

section Stays

variable {l m : Listener} {listeners ms : List Listener} {fuel : Nat} {s : Store} {t : Transaction}
  {c : Collections}

theorem mem_of_mem_publish (h : s.Attends l listeners) (hl : l ∈ (publish fuel s t).listeners) :
    l ∈ s.listeners := by
  by_contra hgone
  exact ((endures_gone l listeners).survives.publish fuel t ⟨h, hgone⟩).2 hl

theorem attends_publish (fuel : Nat) (s : Store) (t : Transaction) (h : s.Attends l listeners) :
    (publish fuel s t).Attends l listeners :=
  (endures_attends l listeners).survives.publish fuel t h

theorem attends_take (fuel : Nat) (h : s.Attends l listeners) (hm : m.Spares l.label)
    {step : Step Listener} (hdoes : (m.respond t c).Does step) :
    (s.take (publish fuel) step).2.Attends l listeners :=
  (endures_attends l listeners).survives.take (attends_publish fuel) h hm hdoes

theorem mem_of_mem_react (h : s.Attends l listeners) (hm : m.Spares l.label) {response : Response}
    (hdoes : ∀ step, response.Does step → (m.respond t c).Does step) {key : Text}
    (hl : l ∈ (react (publish fuel) key response s).listeners) : l ∈ s.listeners := by
  by_contra hgone
  have hsurvives := (endures_gone l listeners).survives
  exact (hsurvives.react (fun _ t => hsurvives.publish fuel t) hm hdoes key ⟨h, hgone⟩).2 hl

theorem attends_call (fuel : Nat) (t : Transaction) (h : s.Attends l listeners)
    (hm : m.Spares l.label) : (call (publish fuel) t s m).Attends l listeners :=
  (endures_attends l listeners).survives.call (attends_publish fuel) t h hm

theorem mem_of_mem_call (h : s.Attends l listeners) (hm : m.Spares l.label)
    (hl : l ∈ (call (publish fuel) t s m).listeners) : l ∈ s.listeners := by
  by_contra hgone
  have hsurvives := (endures_gone l listeners).survives
  exact (hsurvives.call (fun _ t => hsurvives.publish fuel t) t ⟨h, hgone⟩ hm).2 hl

theorem attends_foldl_call (fuel : Nat) (t : Transaction) (h : s.Attends l listeners)
    (hms : ∀ m ∈ ms, m.Spares l.label) :
    (ms.foldl (call (publish fuel) t) s).Attends l listeners :=
  (endures_attends l listeners).survives.foldl_call (attends_publish fuel) t hms h

theorem mem_of_mem_foldl_call (h : s.Attends l listeners) (hms : ∀ m ∈ ms, m.Spares l.label)
    (hl : l ∈ (ms.foldl (call (publish fuel) t) s).listeners) : l ∈ s.listeners := by
  by_contra hgone
  have hsurvives := (endures_gone l listeners).survives
  exact (hsurvives.foldl_call (fun _ t => hsurvives.publish fuel t) t hms ⟨h, hgone⟩).2 hl

end Stays

/--
What a listener hears on the way from one store to another one: each transaction that it has been
due to hear of and each one that is published on the way, once. They come in order if the listeners
before it only observe.
-/
def Hears (l : Listener) (listeners : List Listener) (due : List Transaction) (s s' : Store) :
    Prop :=
  ∃ ts told, s'.published = s.published ++ ts ∧
    s'.heard l.label = s.heard l.label ++ told.map Transaction.id ∧ told.Perm (due ++ ts) ∧
    (l.AfterObservers listeners → told = due ++ ts)

namespace Hears

variable {l : Listener} {listeners : List Listener} {due : List Transaction} {s s' s'' : Store}

theorem refl (s : Store) : Hears l listeners [] s s :=
  ⟨[], [], by simp, by simp, .refl _, fun _ => rfl⟩

theorem trans (h : Hears l listeners due s s') (h' : Hears l listeners [] s' s'') :
    Hears l listeners due s s'' := by
  obtain ⟨ts, told, hpublished, hheard, hperm, hordered⟩ := h
  obtain ⟨ts', told', hpublished', hheard', hperm', hordered'⟩ := h'
  refine ⟨ts ++ ts', told ++ told', ?_, ?_, ?_, ?_⟩
  . rw [hpublished', hpublished, List.append_assoc]
  . rw [hheard', hheard, List.map_append, List.append_assoc]
  . rw [← List.append_assoc]
    exact hperm.append hperm'
  . intro hafter
    rw [hordered hafter, hordered' hafter, List.nil_append, List.append_assoc]

theorem trans_due (h : Hears l listeners [] s s') (h' : Hears l listeners due s' s'')
    (quiet : l.AfterObservers listeners → s'.published = s.published) :
    Hears l listeners due s s'' := by
  obtain ⟨ts, told, hpublished, hheard, hperm, hordered⟩ := h
  obtain ⟨ts', told', hpublished', hheard', hperm', hordered'⟩ := h'
  refine ⟨ts ++ ts', told ++ told', ?_, ?_, ?_, ?_⟩
  . rw [hpublished', hpublished, List.append_assoc]
  . rw [hheard', hheard, List.map_append, List.append_assoc]
  . exact (hperm.append hperm').trans (List.perm_append_comm_assoc ts due ts')
  . intro hafter
    have hnone : ts = [] := by
      rw [quiet hafter] at hpublished
      exact List.append_right_eq_self.mp hpublished.symm
    rw [hordered hafter, hordered' hafter, hnone]
    rfl

end Hears

section Publish

variable {l m : Listener} {listeners ms : List Listener} {fuel : Nat} {s : Store} {t : Transaction}

theorem heard_congr {s s' : Store} (h : s'.deliveries = s.deliveries) (label : Text) :
    s'.heard label = s.heard label := by
  rw [heard, heard, h]

theorem Hears.of_same {s s' : Store} (hpublished : s'.published = s.published)
    (hdeliveries : s'.deliveries = s.deliveries) : Hears l listeners [] s s' :=
  ⟨[], [], by simp [hpublished], by simp [heard_congr hdeliveries], .refl _, fun _ => rfl⟩

def HearsInside (l : Listener) (listeners : List Listener) (fuel : Nat) : Prop :=
  ∀ s t, settles fuel s t = true → s.Attends l listeners → l ∈ (publish fuel s t).listeners →
    Hears l listeners [t] s (publish fuel s t)

theorem hears_settle (hears : HearsInside l listeners fuel) {views : List View}
    (settled : s.viewsSettle (settles fuel) views = true) (hs : s.Attends l listeners)
    (hl : l ∈ (s.settle (publish fuel) views).listeners) :
    Hears l listeners [] s (s.settle (publish fuel) views) := by
  obtain ⟨hdeliveries, hlisteners, hpublished⟩ := takeOverAll_rest s.abort views
  unfold viewsSettle at settled
  unfold settle at hl ⊢
  rw [abort] at hdeliveries hlisteners hpublished
  rcases htaken : { s with inTransaction := false }.takeOverAll views with ⟨_ | t, mid⟩
  . rw [htaken] at hdeliveries hpublished
    simp only [htaken]
    exact .of_same (by simpa using hpublished) hdeliveries
  . rw [htaken] at hdeliveries hlisteners hpublished
    simp only [htaken] at settled hl ⊢
    obtain ⟨ts, told, hpublished', hheard, hperm, hordered⟩ :=
      hears mid t settled (hs.congr hlisteners) hl
    refine ⟨[t] ++ ts, told, ?_, ?_, hperm, hordered⟩
    . rw [hpublished', hpublished, List.append_assoc]
      rfl
    . rw [hheard, heard_congr hdeliveries, heard, heard]

theorem hears_take (hears : HearsInside l listeners fuel) {step : Step Listener}
    (settled : s.takeSettles (settles fuel) step = true) (hs : s.Attends l listeners)
    (hl : l ∈ (s.take (publish fuel) step).2.listeners) :
    Hears l listeners [] s (s.take (publish fuel) step).2 := by
  cases step with
  | subscribe other => exact .of_same rfl rfl
  | unsubscribe key => exact .of_same rfl rfl
  | transact names mutate =>
    rcases take_transact_cases (publish fuel) s names mutate with
      ⟨failure, heq⟩ | ⟨views, s', ws, hbegin, hmutate, heq⟩
    . rw [heq]
      exact .refl s
    . simp only [takeSettles, hbegin, hmutate] at settled
      obtain ⟨rfl, -, -⟩ := begin_eq_ok hbegin
      rw [heq] at hl ⊢
      exact hears_settle hears settled hs hl

theorem hears_react (hears : HearsInside l listeners fuel) (hm : m.Spares l.label)
    {c : Collections} {response : Response}
    (hdoes : ∀ step, response.Does step → (m.respond t c).Does step) {key : Text}
    (settled : reactSettles (publish fuel) (settles fuel) key response s = true)
    (hs : s.Attends l listeners) (hl : l ∈ (react (publish fuel) key response s).listeners) :
    Hears l listeners [] s (react (publish fuel) key response s) := by
  induction response generalizing s with
  | nothing => exact .refl s
  | fail => exact .refl s
  | leave => exact .of_same rfl rfl
  | step step next ih =>
    rw [reactSettles, Bool.and_eq_true] at settled
    have hnext (result : Except Failure Unit) (c' : Collections) (other : Step Listener)
        (hother : (next result c').Does other) : (m.respond t c).Does other :=
      hdoes other (.later hother)
    have htaken := attends_take fuel hs hm (hdoes step .now)
    have hmem := mem_of_mem_react htaken hm (hnext _ _) hl
    exact (hears_take hears settled.1 hs hmem).trans
      (ih _ _ (hnext _ _) settled.2 htaken hl)

theorem hears_call (hears : HearsInside l listeners fuel) (hm : m.Spares l.label)
    (hs : s.Attends l listeners)
    (settled : reactSettles (publish fuel) (settles fuel) m.key (m.respond t s.collections)
      { s with deliveries := s.deliveries ++ [⟨m.label, t.id⟩] } = true)
    (hl : l ∈ (call (publish fuel) t s m).listeners) :
    Hears l listeners (if m.label = l.label then [t] else []) s (call (publish fuel) t s m) := by
  have htold : Hears l listeners (if m.label = l.label then [t] else []) s
      { s with deliveries := s.deliveries ++ [⟨m.label, t.id⟩] } := by
    refine ⟨[], if m.label = l.label then [t] else [], (List.append_nil _).symm, ?_, by simp,
      by simp⟩
    unfold heard
    rw [List.filter_append, List.map_append]
    by_cases heq : m.label = l.label <;> simp [heq]
  exact htold.trans (hears_react hears hm (fun _ => id) settled (hs.congr rfl) hl)

theorem hears_foldl_call (hears : HearsInside l listeners fuel)
    (hms : ∀ m ∈ ms, m.Spares l.label) (others : ∀ m ∈ ms, m.label ≠ l.label)
    (hs : s.Attends l listeners)
    (settled : settlesAll (publish fuel) (settles fuel) t s ms = true)
    (hl : l ∈ (ms.foldl (call (publish fuel) t) s).listeners) :
    Hears l listeners [] s (ms.foldl (call (publish fuel) t) s) := by
  induction ms generalizing s with
  | nil => exact .refl s
  | cons m rest ih =>
    rw [settlesAll, Bool.and_eq_true] at settled
    have hm := hms m List.mem_cons_self
    have hrest : ∀ m ∈ rest, m.Spares l.label := fun other hmem =>
      hms other (List.mem_cons_of_mem _ hmem)
    have hs' := attends_call fuel t hs hm
    have hcall := hears_call hears hm hs settled.1 (mem_of_mem_foldl_call hs' hrest hl)
    rw [if_neg (others m List.mem_cons_self)] at hcall
    exact hcall.trans
      (ih hrest (fun other hmem => others other (List.mem_cons_of_mem _ hmem)) hs' settled.2 hl)

theorem published_react_of_observes {publish : Store → Transaction → Store} (hm : m.Observes)
    {c : Collections} {response : Response}
    (hdoes : ∀ step, response.Does step → (m.respond t c).Does step) (key : Text) (s : Store) :
    (react publish key response s).published = s.published := by
  induction response generalizing s with
  | nothing => rfl
  | fail => rfl
  | leave => rfl
  | step step next ih =>
    refine (ih _ _ (fun other hother => hdoes other (.later hother)) _).trans ?_
    cases step with
    | subscribe other => rfl
    | unsubscribe key => rfl
    | transact names mutate => exact absurd rfl (hm.good_of_does (hdoes _ .now) names mutate)

theorem published_foldl_call_of_observe (observe : ∀ m ∈ ms, m.Observes)
    (publish : Store → Transaction → Store) (t : Transaction) (s : Store) :
    (ms.foldl (call publish t) s).published = s.published := by
  induction ms generalizing s with
  | nil => rfl
  | cons m rest ih =>
    rw [List.foldl_cons, ih fun other hmem => observe other (List.mem_cons_of_mem _ hmem)]
    exact published_react_of_observes (observe m List.mem_cons_self) (fun _ => id) m.key _

theorem Attends.exists_split (hs : s.Attends l listeners) (hl : l ∈ s.listeners) :
    ∃ pre post, s.listeners = pre ++ l :: post ∧ (∀ m ∈ pre, m.label ≠ l.label) ∧
      ∀ m ∈ post, m.label ≠ l.label := by
  obtain ⟨pre, post, hsplit⟩ := List.append_of_mem hl
  have honce := hs.once
  rw [hsplit, List.map_append, List.map_cons, List.count_append, List.count_cons_self] at honce
  have hnone (ms : List Listener) (hcount : (ms.map Listener.label).count l.label = 0) :
      ∀ m ∈ ms, m.label ≠ l.label :=
    fun m hm heq => List.count_eq_zero.mp hcount (heq ▸ List.mem_map_of_mem hm)
  exact ⟨pre, post, hsplit, hnone pre (by omega), hnone post (by omega)⟩

theorem hears_publish (l : Listener) (listeners : List Listener) (fuel : Nat) :
    HearsInside l listeners fuel := by
  induction fuel with
  | zero => exact fun _ _ settled => by cases settled
  | succ fuel ih =>
    intro s t settled hs hl
    obtain ⟨pre, post, hsplit, hpre, hpost⟩ :=
      hs.exists_split (mem_of_mem_publish hs hl)
    have hspares := hs.spares
    rw [hsplit, List.forall_mem_append, List.forall_mem_cons] at hspares
    obtain ⟨hsparesPre, hsparesSelf, hsparesPost⟩ := hspares
    rw [settles, hsplit, settlesAll_append, settlesAll, Bool.and_eq_true, Bool.and_eq_true]
      at settled
    obtain ⟨hsettledPre, hsettled, hsettledPost⟩ := settled
    rw [publish, hsplit, List.foldl_append, List.foldl_cons] at hl ⊢
    have hs' := attends_foldl_call fuel t hs hsparesPre
    have hs'' := attends_call fuel t hs' hsparesSelf
    have hcalled := mem_of_mem_foldl_call hs'' hsparesPost hl
    have hbefore := mem_of_mem_call hs' hsparesSelf hcalled
    -- The listeners before this one, this one itself, and those after it.
    have hhearsPre := hears_foldl_call ih hsparesPre hpre hs hsettledPre hbefore
    have hhears := hears_call ih hsparesSelf hs' hsettled hcalled
    have hhearsPost := hears_foldl_call ih hsparesPost hpost hs'' hsettledPost hl
    rw [if_pos rfl] at hhears
    refine (hhearsPre.trans_due hhears fun hafter => ?_).trans hhearsPost
    apply published_foldl_call_of_observe
    intro m hm
    apply hafter
    apply hs.behind
    rw [hsplit]
    exact List.Sublist.append (List.singleton_sublist.mpr hm)
      (List.singleton_sublist.mpr List.mem_cons_self)

end Publish

end Store

namespace Call

variable {α : Type}

def settles [Limits] (call : Call α) (s : Store) : Bool :=
  match s.begin call.names with
  | .error _ => true
  | .ok (views, s) =>
    match call.mutator.run views s with
    | (.error _, _) => true
    | (.ok (_, views), s) => s.viewsSettle (Store.settles Limits.maxPublications) views

theorem hears_perform [Limits] {call : Call α} {l : Listener} {listeners : List Listener}
    {s : Store}
    (settled : call.settles s = true) (hs : s.Attends l listeners)
    (hl : l ∈ (call.perform s).2.listeners) : s.Hears l listeners [] (call.perform s).2 := by
  rcases call.perform_cases s with ⟨failure, heq⟩ | ⟨views, s', a, ws, hbegin, hrun, heq⟩
  . rw [heq]
    exact .refl s
  . simp only [settles, hbegin, hrun] at settled
    obtain ⟨rfl, -, -⟩ := Store.begin_eq_ok hbegin
    rw [heq] at hl ⊢
    exact Store.hears_settle (Store.hears_publish l listeners _) settled hs hl

end Call

namespace Store

variable {α : Type}

def runSettles [Limits] (s : Store) : List (Call α) → Bool
  | [] => true
  | call :: rest => call.settles s && runSettles (call.perform s).2 rest

theorem hears_runCalls [Limits] {s : Store} {calls : List (Call α)} {l : Listener}
    {listeners : List Listener} (settled : s.runSettles calls = true)
    (hs : s.Attends l listeners) (hl : l ∈ (s.runCalls calls).listeners) :
    Hears l listeners [] s (s.runCalls calls) := by
  induction calls generalizing s with
  | nil => exact .refl s
  | cons call rest ih =>
    rw [runSettles, Bool.and_eq_true] at settled
    have hs' := (endures_attends l listeners).perform call hs
    have hmem : l ∈ (call.perform s).2.listeners := by
      by_contra hgone
      exact ((endures_gone l listeners).runCalls rest ⟨hs', hgone⟩).2 hl
    exact (Call.hears_perform settled.1 hs hmem).trans (ih settled.2 hs' hl)

/--
What a run of calls publishes tells all that becomes of the store: each transaction leads from one
ledger to the next, replaying them gives what the collections hold in the end, and the versions
count them. They are what a listener hears of, in order, that stays and has been subscribed before
all that run transactions. A call without effect leaves the ledger alone, and after each call the
next one can begin.
-/
theorem runCalls_published [Limits] (s : Store) (calls : List (Call α))
    (idle : s.inTransaction = false)
    (fair : ∀ listener ∈ s.listeners, listener.Fair)
    (distinct : ∀ call ∈ calls, call.names.Nodup) :
    (∃ ts, s.ledger.History ts (s.runCalls calls).ledger ∧
      (s.runCalls calls).published = s.published ++ ts ∧
      (∀ name key, Stays ((s.collections.replay ts).under? name key)
        ((s.runCalls calls).collections.under? name key)) ∧
      (∀ name, (s.runCalls calls).versions.get name =
        s.versions.get name + ts.countP (·.touches name)) ∧
      ((s.listeners.map Listener.label).Nodup → s.runSettles calls = true →
        ∀ l ∈ (s.runCalls calls).listeners, l.AfterObservers s.listeners →
          (∀ m ∈ s.listeners, m.Spares l.label) →
            (s.runCalls calls).heard l.label = s.heard l.label ++ ts.map Transaction.id)) ∧
    ∀ before call after, calls = before ++ call :: after →
      (call.Void (s.runCalls before) →
        (s.runCalls (before ++ [call])).ledger = (s.runCalls before).ledger) ∧
      ∀ names : List Text, (∀ name ∈ names, (CollectionName.ofText? name).isSome) →
        ∃ views s', (s.runCalls (before ++ [call])).begin names = .ok (views, s') := by
  obtain ⟨⟨ts, hts⟩, -⟩ := history_runCalls fair distinct
  refine ⟨⟨ts, hts, hts.published_eq, ?_, hts.versions_eq, ?_⟩, ?_⟩
  . apply hts.stays_replay
    exact fun name key => Stays.refl _
  . intro labels settled l hl hafter spares
    obtain ⟨ts', told, hpublished, hheard, -, hordered⟩ :=
      hears_runCalls settled (.start labels spares) hl
    have hsame : ts = ts' := by
      have hledger := hts.published_eq
      rw [ledger, ledger, hpublished, List.append_cancel_left_eq] at hledger
      exact hledger.symm
    rw [hheard, hordered hafter, List.nil_append, hsame]
  . rintro before call after rfl
    have hbefore : ∀ call ∈ before, call.names.Nodup :=
      fun other hmem => distinct other (List.mem_append_left _ hmem)
    have hcall : call.names.Nodup := distinct call (by simp)
    obtain ⟨-, hfollows⟩ := history_runCalls fair hbefore
    have hidle : (s.runCalls before).inTransaction = false := hfollows.inTransaction.trans idle
    have hnext : s.runCalls (before ++ [call]) = (call.perform (s.runCalls before)).2 := by
      simp [runCalls]
    rw [hnext]
    constructor
    . intro hvoid
      rw [Call.perform_of_void hidle hvoid]
    . intro names known
      obtain ⟨-, hperform⟩ := call.history_perform
        (hfollows.fair fair) hcall
      exact begin_of_known (hperform.inTransaction.trans hidle) known

/--
Calls that put a flag among the props, are refused a transaction inside, and take the flag away.
-/
def flagCalls : List (Call Unit) := [
  ⟨["props"], .write 0 (.set "flag" (.raw (.bool true))) fun _ =>
    .nested ["props"] (.done ()) fun _ => .done ()⟩,
  ⟨["props"], .write 0 (.erase "flag") fun _ => .done ()⟩]

theorem runCalls_flagCalls :
    ((new .empty .empty ⟨[], 0⟩ ⟨[], 0⟩).runCalls flagCalls).published.length = 2 ∧
      ∃ ts, (new .empty .empty ⟨[], 0⟩ ⟨[], 0⟩).ledger.History ts
        ((new .empty .empty ⟨[], 0⟩ ⟨[], 0⟩).runCalls flagCalls).ledger := by
  constructor
  . decide +kernel
  . obtain ⟨⟨ts, hts, -⟩, -⟩ := runCalls_published (new .empty .empty ⟨[], 0⟩ ⟨[], 0⟩) flagCalls rfl
      (fun listener hmem => absurd hmem List.not_mem_nil) (by decide)
    exact ⟨ts, hts⟩

/--
The transactions that are published on the way from one store to another one take the next ids of
the supply.
-/
def Issues (s s' : Store) : Prop :=
  ∃ ts, s'.published = s.published ++ ts ∧
    ts.map Transaction.id = (List.range' s.transactionIds.taken ts.length).map (fun n =>
      s.transactionIds.stem ++ Text.ofNat (n + 1)) ∧
    s'.transactionIds = ⟨s.transactionIds.stem, s.transactionIds.taken + ts.length⟩

theorem Issues.refl (s : Store) : s.Issues s :=
  ⟨[], by simp, rfl, rfl⟩

theorem Issues.trans {s s' s'' : Store} (h : s.Issues s') (h' : s'.Issues s'') : s.Issues s'' := by
  obtain ⟨ts, hpublished, hids, hsupply⟩ := h
  obtain ⟨ts', hpublished', hids', hsupply'⟩ := h'
  rw [hsupply] at hids' hsupply'
  refine ⟨ts ++ ts', ?_, ?_, ?_⟩
  . rw [hpublished', hpublished, List.append_assoc]
  . rw [List.map_append, hids, hids', ← List.map_append, List.range'_append_1, List.length_append]
  . rw [hsupply', List.length_append, Nat.add_assoc]

theorem issues_takeOverAll (s : Store) (views : List View) :
    s.Issues (s.takeOverAll views).2 := by
  rcases takeOverAll_cases s views with heq | ⟨c, v, t, hid, heq⟩
  . rw [heq]
    exact .refl s
  . rw [heq]
    exact ⟨[t], rfl, congrArg (fun id => [id]) hid, rfl⟩

theorem endures_issues (s : Store) : Endures s.Issues fun _ => True where
  listeners := fun _ _ _ _ => trivial
  deliver := fun _ _ h => h
  unsubscribe := fun _ _ h => h
  subscribe := fun _ _ _ _ _ h _ _ => h
  takeOver := fun s' views h => h.trans (issues_takeOverAll s' views)

theorem Issues.nodup {s s' : Store} {ts : List Transaction} (h : s.Issues s')
    (published : s'.published = s.published ++ ts) : (ts.map Transaction.id).Nodup := by
  obtain ⟨ts', hpublished, hids, -⟩ := h
  rw [hpublished, List.append_cancel_left_eq] at published
  rw [← published, hids]
  apply List.Nodup.map _ (List.nodup_range' ..)
  intro m n heq
  have hdigits := congrArg Text.decimalValue (List.append_cancel_left heq)
  rw [Text.decimalValue_ofNat, Text.decimalValue_ofNat] at hdigits
  omega

/--
A listener that is still there after some calls, and that nobody subscribes anew, has heard of every
transaction that has been published meanwhile, once. If the listeners that have been subscribed
before it run no transactions, it has heard of them in the order in which they have been committed,
and replaying them gives what the store holds.
-/
theorem runCalls_heard [Limits] (s : Store) (calls : List (Call α))
    (labels : (s.listeners.map Listener.label).Nodup) (settled : s.runSettles calls = true) :
    ∃ ts, (s.runCalls calls).published = s.published ++ ts ∧ (ts.map Transaction.id).Nodup ∧
      ∀ l ∈ (s.runCalls calls).listeners, (∀ m ∈ s.listeners, m.Spares l.label) → ∃ told,
        (s.runCalls calls).heard l.label = s.heard l.label ++ told.map Transaction.id ∧
        told.Perm ts ∧
        (l.AfterObservers s.listeners → told = ts ∧
          ((∀ listener ∈ s.listeners, listener.Fair) → (∀ call ∈ calls, call.names.Nodup) →
            ∀ name key, Stays ((s.collections.replay told).under? name key)
              ((s.runCalls calls).collections.under? name key))) := by
  have hissues : s.Issues (s.runCalls calls) := (endures_issues s).runCalls calls (.refl s)
  have ⟨ts, hpublished, _⟩ := hissues
  refine ⟨ts, hpublished, hissues.nodup hpublished, ?_⟩
  intro l hl spares
  obtain ⟨ts', told, hpublished', hheard, hperm, hordered⟩ :=
    hears_runCalls settled (.start labels spares) hl
  rw [hpublished', List.append_cancel_left_eq] at hpublished
  subst hpublished
  refine ⟨told, hheard, hperm, fun hafter => ⟨hordered hafter, ?_⟩⟩
  intro fair distinct
  obtain ⟨⟨us, hus⟩, -⟩ := history_runCalls fair distinct
  have hsame : us = ts' := by
    have hpublished := hus.published_eq
    rw [ledger, ledger, hpublished', List.append_cancel_left_eq] at hpublished
    exact hpublished.symm
  rw [hordered hafter, List.nil_append, ← hsame]
  exact hus.stays_replay fun name key => Stays.refl _

def logger : Listener :=
  ⟨"log", "log", fun _ _ => .nothing⟩

/--
A listener that takes back a flag among the props as soon as it is set.
-/
def flipper : Listener :=
  ⟨"flip", "flip", fun _ c =>
    if c.props.get? "flag" = some (.raw (.bool true)) then
      .commit [.props] fun views => views.map fun view => view.set "flag" (.raw (.bool false))
    else .nothing⟩

theorem does_flipper {t : Transaction} {c : Collections} {step : Step Listener}
    (h : (flipper.respond t c).Does step) :
    step = .transact ["props"] fun views =>
      .ok (views.map fun view => view.set "flag" (.raw (.bool false))) := by
  simp only [flipper] at h
  split at h
  . cases h with
    | now => rfl
    | later hnothing => cases hnothing
  . cases h

theorem fair_flipper : flipper.Fair := by
  refine .intro (fun t c step hdoes names mutate hstep => ?_) fun t c m hdoes => ?_
  . rw [does_flipper hdoes] at hstep
    cases hstep
    refine ⟨by decide, fun views ws hws => ?_⟩
    cases hws
    rw [List.map_map]
    exact List.map_congr_left fun view _ => View.origin_set view _ _
  . cases does_flipper hdoes

theorem spares_flipper (label : Text) : flipper.Spares label := by
  refine .intro (fun t c step hdoes m hstep => ?_) fun t c m hdoes => ?_
  . rw [does_flipper hdoes] at hstep
    cases hstep
  . cases does_flipper hdoes

theorem always_logger (good : Step Listener → Prop) : logger.Always good :=
  .of_not_does nofun

def listenedStore (listeners : List Listener) : Store :=
  { new .empty .empty ⟨[], 0⟩ ⟨[], 0⟩ with listeners }

def setFlag : Call Unit :=
  ⟨["props"], .write 0 (.set "flag" (.raw (.bool true))) fun _ => .done ()⟩

/--
The flag is set and taken back, whoever is called first.
-/
def flagged : Transaction :=
  ⟨"1", [.props], [⟨.props, "flag", none, some (.raw (.bool true))⟩]⟩

def flipped : Transaction :=
  ⟨"2", [.props], [⟨.props, "flag", some (.raw (.bool true)), some (.raw (.bool false))⟩]⟩

theorem published_setFlag :
    ((listenedStore [logger, flipper]).runCalls [setFlag]).published = [flagged, flipped] ∧
      ((listenedStore [flipper, logger]).runCalls [setFlag]).published = [flagged, flipped] := by
  decide +kernel

theorem listeners_setFlag :
    ((listenedStore [logger, flipper]).runCalls [setFlag]).listeners = [logger, flipper] ∧
      ((listenedStore [flipper, logger]).runCalls [setFlag]).listeners = [flipper, logger] := by
  constructor <;> cbv

theorem runCalls_heard_logger :
    ((listenedStore [logger, flipper]).runCalls [setFlag]).heard "log" =
        [flagged, flipped].map Transaction.id ∧
      ∀ name key, Stays ((Collections.empty.replay [flagged, flipped]).under? name key)
        (((listenedStore [logger, flipper]).runCalls [setFlag]).collections.under? name key) := by
  obtain ⟨ts, hpublished, -, hheard⟩ := runCalls_heard (listenedStore [logger, flipper]) [setFlag]
    (by decide) (by decide +kernel)
  rw [published_setFlag.1] at hpublished
  have hspares : ∀ m ∈ (listenedStore [logger, flipper]).listeners, m.Spares logger.label := by
    intro m hm
    rcases List.mem_cons.mp hm with rfl | hm
    . exact always_logger _
    . rw [List.mem_singleton.mp hm]
      exact spares_flipper _
  obtain ⟨told, htold, -, hordered⟩ := hheard logger
    (listeners_setFlag.1 ▸ List.mem_cons_self) hspares
  have hafter : logger.AfterObservers (listenedStore [logger, flipper]).listeners := by
    intro other hbefore
    have hsame : [other, logger] = [logger, flipper] := hbefore.eq_of_length rfl
    injection hsame with _ hsame
    exact absurd (congrArg (List.map Listener.label) hsame) (by decide)
  obtain ⟨rfl, hreplay⟩ := hordered hafter
  have hts : [flagged, flipped] = told := hpublished
  rw [hts]
  refine ⟨htold, hreplay ?_ (by decide)⟩
  intro listener hmem
  rcases List.mem_cons.mp hmem with rfl | hmem
  . exact always_logger _
  . rw [List.mem_singleton.mp hmem]
    exact fair_flipper

/--
A listener that is called after one that commits hears of the transactions in another order, and
replaying them in that order does not give what the store holds.
-/
theorem not_forall_heard_in_order :
    ¬ ∀ (s : Store) (calls : List (Call Unit)) (ts told : List Transaction) (l : Listener),
      (s.listeners.map Listener.label).Nodup → s.runSettles calls = true →
      (∀ listener ∈ s.listeners, listener.Fair) → (∀ call ∈ calls, call.names.Nodup) →
      (s.runCalls calls).published = s.published ++ ts → l ∈ (s.runCalls calls).listeners →
      (s.runCalls calls).heard l.label = s.heard l.label ++ told.map Transaction.id →
      told.Perm ts →
        told = ts ∨ ∀ name key, Stays ((s.collections.replay told).under? name key)
          ((s.runCalls calls).collections.under? name key) := by
  intro h
  have hfair : ∀ listener ∈ (listenedStore [flipper, logger]).listeners, listener.Fair := by
    intro listener hmem
    rcases List.mem_cons.mp hmem with rfl | hmem
    . exact fair_flipper
    . rw [List.mem_singleton.mp hmem]
      exact always_logger _
  have hheard : ((listenedStore [flipper, logger]).runCalls [setFlag]).heard "log" =
      [flipped, flagged].map Transaction.id := by
    decide +kernel
  rcases h (listenedStore [flipper, logger]) [setFlag] [flagged, flipped] [flipped, flagged] logger
    (by decide) (by decide +kernel) hfair (by decide) published_setFlag.2
    (listeners_setFlag.2 ▸ List.mem_cons_of_mem _ List.mem_cons_self) hheard (.swap ..)
    with hsame | hstays
  . revert hsame
    decide
  . have hflag := hstays .props "flag"
    have hreplayed : ((listenedStore [flipper, logger]).collections.replay
        [flipped, flagged]).under? .props "flag" = some (.raw (.bool true)) := by
      cbv
    have hstored : ((listenedStore [flipper, logger]).runCalls [setFlag]).collections.under? .props
        "flag" = some (.raw (.bool false)) := by
      cbv
    rw [hreplayed, hstored] at hflag
    rcases hflag with hagrees | hsame
    . revert hagrees
      decide
    . cases hsame

end Store

end PageBinding
