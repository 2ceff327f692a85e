import PageBinding.Proofs.Edit.Write
import PageBinding.Proofs.Store.Mutator
import PageBinding.Proofs.Usage
import PageBinding.Service

/-!
This module contains trackers on a store that is written to. The version of a collection never stays
the same when the collection changes, so a tracker that goes by the version of the props answers
what a scan of the props would find: between transactions, inside of a mutator and in a listener,
whatever effects it allows.
-/

namespace PageBinding

namespace Store

variable {s s' s'' : Store} {name : CollectionName}

def Dates (name : CollectionName) (s s' : Store) : Prop :=
  s'.collections.get name = s.collections.get name ∧
      s'.versions.get name = s.versions.get name ∨
    s.versions.get name < s'.versions.get name

theorem Dates.refl (name : CollectionName) (s : Store) : Dates name s s :=
  .inl ⟨rfl, rfl⟩

theorem Dates.trans (h : Dates name s s') (h' : Dates name s' s'') : Dates name s s'' := by
  unfold Dates at *
  rcases h with ⟨hcollection, hversion⟩ | hlt
  . rw [← hcollection, ← hversion]
    exact h'
  . right
    rcases h' with ⟨-, hversion⟩ | hlt'
    . rw [hversion]
      exact hlt
    . exact Nat.lt_trans hlt hlt'

theorem dates_takeOver (name : CollectionName) (changed : List CollectionName) (s : Store)
    (view : View) : Dates name s (takeOver changed s view) := by
  unfold takeOver
  split
  . by_cases hname : name = view.name
    . right
      simp [Versions.get_bump, hname]
    . left
      simp [Collections.get_set, Versions.get_bump, hname]
  . exact .refl name s

theorem dates_foldl_takeOver (name : CollectionName) (changed : List CollectionName)
    (views : List View) (s : Store) : Dates name s (views.foldl (takeOver changed) s) := by
  induction views generalizing s with
  | nil => exact .refl name s
  | cons view rest ih => exact (dates_takeOver name changed s view).trans (ih _)

-- The views may be of any collections, and several of them may be views of the same one.
theorem dates_takeOverAll (name : CollectionName) (s : Store) (views : List View) :
    Dates name s (s.takeOverAll views).2 := by
  simp only [takeOverAll]
  split
  . exact .refl name s
  . exact dates_foldl_takeOver name ((views.flatMap View.changes).map Change.collection) views s

end Store

namespace Edit

theorem run_delete [Limits] (variableId : Text) (effects : Option (List Text)) (s : Store) :
    (delete variableId effects).run s =
      match requireVariable s.collections variableId with
      | .error failure => (.error failure, s)
      | .ok entity =>
        match (Usage.used effects s.collections.props.values).bind fun used =>
            Usage.ensureDeletable used entity with
        | .error failure => (.error failure, s)
        | .ok _ => (eraseVariable variableId).run s := by
  unfold delete
  rw [run_get_bind, run_ofExcept_bind]
  cases requireVariable s.collections variableId with
  | error failure => rfl
  | ok entity =>
    simp only [run_ofExcept_bind]
    cases Usage.used effects s.collections.props.values with
    | error failure => rfl
    | ok used =>
      simp only [Except.bind]
      cases Usage.ensureDeletable used entity <;> rfl

end Edit

namespace Tracker

variable {t : Tracker} {s : Store}

/--
What depends on a tracker comes out as if there were none: it answers what a scan of the props
finds, and a deletion that asks it ends like one that scans the props.
-/
structure AnswersAsScan [Limits] (t : Tracker) (s : Store) : Prop where
  used : (t.used s).1 = Usage.used t.effects s.collections.props.values
  delete : ∀ settings variableId,
    ((⟨s, settings, t⟩ : Service).delete variableId).1 =
        ((Edit.delete variableId t.effects).run s).1 ∧
      ((⟨s, settings, t⟩ : Service).delete variableId).2.store =
        ((Edit.delete variableId t.effects).run s).2

theorem Current.answersAsScan [Limits] (h : t.Current s) : t.AnswersAsScan s := by
  refine ⟨used_eq h, ?_⟩
  intro settings variableId
  rw [Edit.run_delete, ← used_eq h]
  simp only [Service.delete, Service.ask, ensureDeletable]
  cases Edit.requireVariable s.collections variableId with
  | error failure => exact ⟨rfl, rfl⟩
  | ok entity =>
    dsimp only
    cases (t.used s).1.bind fun ids => Usage.ensureDeletable ids entity <;> exact ⟨rfl, rfl⟩

end Tracker

/--
What somebody does with the trackers of a store: make a new one, or ask one of those there are.
-/
inductive Inquiry where
  | track (effects : Option (List Text))
  | ask (i : Nat)

/--
What a listener does with the trackers before a step of its reaction, and in the mutator of that
step if it is a transaction.
-/
structure Habit where
  before : List Inquiry
  inside : List Inquiry

/--
A store with the trackers on it. It is kept which of them have been asked, as they were then, and of
which store. Views do not outlive the transaction that they have been made for.
-/
structure Tracked where
  store : Store
  trackers : List Tracker
  asked : List (Tracker × Store)

namespace Tracked

variable {α : Type}

def new (store : Store) : Tracked :=
  ⟨store, [], []⟩

def inquire [Limits] (w : Tracked) : Inquiry → Option (Except Failure (List Text)) × Tracked
  | .track effects => (none, { w with trackers := w.trackers ++ [.new effects] })
  | .ask i =>
    match w.trackers[i]? with
    | none => (none, w)
    | some t =>
      let (answer, asked) := t.used w.store
      (some answer,
        { w with trackers := w.trackers.set i asked, asked := w.asked ++ [(t, w.store)] })

def inquireAll [Limits] (w : Tracked) (inquiries : List Inquiry) : Tracked :=
  inquiries.foldl (fun w inquiry => (w.inquire inquiry).2) w

section Listeners

section Step

variable (publish : Tracked → Transaction → Tracked)

def settle (w : Tracked) (views : List View) : Tracked :=
  match { w.store with inTransaction := false }.takeOverAll views with
  | (some t, store) => publish { w with store } t
  | (none, store) => { w with store }

def transactWith (w : Tracked) (names : List Text)
    (mutate : List View → Tracked → Except Failure (α × List View) × Tracked) :
    Except Failure α × Tracked :=
  match w.store.begin names with
  | .error failure => (.error failure, w)
  | .ok (views, store) =>
    match mutate views { w with store } with
    | (.error failure, w) => (.error (.aborted failure), { w with store := w.store.abort })
    | (.ok (a, views), w) => (.ok a, w.settle publish views)

def take [Limits] (inside : List Inquiry) (w : Tracked) :
    Step Listener → Except Failure Unit × Tracked
  | .subscribe listener => (.ok (), { w with store := w.store.subscribe listener })
  | .unsubscribe key => (.ok (), { w with store := w.store.unsubscribe key })
  | .transact names mutate =>
    w.transactWith publish names fun views w =>
      ((mutate views).map ((), ·), w.inquireAll inside)

/--
Do what a listener does that has the trackers at hand. The number is how many steps it has taken.
-/
def react [Limits] (habit : Nat → Collections → Habit) (key : Text) :
    Response → Nat → Tracked → Tracked
  | .nothing, n, w | .fail, n, w => w.inquireAll (habit n w.store.collections).before
  | .leave, n, w =>
    let w := w.inquireAll (habit n w.store.collections).before
    { w with store := w.store.unsubscribe key }
  | .step step next, n, w =>
    let ⟨before, inside⟩ := habit n w.store.collections
    let (result, w) := (w.inquireAll before).take publish inside step
    react habit key (next result w.store.collections) (n + 1) w

end Step

variable (habits : Listener → Transaction → Nat → Collections → Habit)

def call [Limits] (publish : Tracked → Transaction → Tracked) (t : Transaction) (w : Tracked)
    (listener : Listener) : Tracked :=
  let deliveries := w.store.deliveries ++ [⟨listener.label, t.id⟩]
  react publish (habits listener t) listener.key (listener.respond t w.store.collections) 0
    { w with store := { w.store with deliveries } }

def publish [Limits] (fuel : Nat) (w : Tracked) (t : Transaction) : Tracked :=
  match fuel with
  | 0 => w
  | fuel + 1 => w.store.listeners.foldl (call habits (publish fuel) t) w

def transact [Limits] (w : Tracked) (names : List Text)
    (mutate : List View → Tracked → Except Failure (α × List View) × Tracked) :
    Except Failure α × Tracked :=
  w.transactWith (publish habits Limits.maxPublications) names mutate

variable {habits}

@[simp]
theorem store_inquire [Limits] (w : Tracked) (inquiry : Inquiry) :
    (w.inquire inquiry).2.store = w.store := by
  cases inquiry with
  | track effects => rfl
  | ask i =>
    simp only [inquire]
    split <;> rfl

@[simp]
theorem store_inquireAll [Limits] (w : Tracked) (inquiries : List Inquiry) :
    (w.inquireAll inquiries).store = w.store := by
  induction inquiries generalizing w with
  | nil => rfl
  | cons inquiry rest ih => exact (ih _).trans (store_inquire w inquiry)

section Publish

variable {publish : Tracked → Transaction → Tracked} {publish' : Store → Transaction → Store}
  (hpublish : ∀ w t, (publish w t).store = publish' w.store t)
include hpublish

theorem store_settle (w : Tracked) (views : List View) :
    (w.settle publish views).store = w.store.settle publish' views := by
  simp only [settle, Store.settle]
  generalize Store.takeOverAll _ _ = taken
  rcases taken with ⟨_ | t, s⟩
  . rfl
  . exact hpublish _ t

theorem transactWith_eq (w : Tracked) (names : List Text)
    (mutate : List View → Tracked → Except Failure (α × List View) × Tracked) :
    ((w.transactWith publish names mutate).1, (w.transactWith publish names mutate).2.store) =
      w.store.transactWith publish' names fun views store =>
        ((mutate views { w with store }).1, (mutate views { w with store }).2.store) := by
  unfold transactWith Store.transactWith
  cases w.store.begin names with
  | error failure => rfl
  | ok result =>
    obtain ⟨views, store⟩ := result
    rcases hmutate : mutate views { w with store } with ⟨_ | ⟨a, staged⟩, w'⟩
    . simp only [hmutate]
    . simp only [hmutate, store_settle hpublish]

variable [Limits]

theorem take_eq (inside : List Inquiry) (w : Tracked) (step : Step Listener) :
    ((w.take publish inside step).1, (w.take publish inside step).2.store) =
      w.store.take publish' step := by
  cases step with
  | subscribe listener => rfl
  | unsubscribe key => rfl
  | transact names mutate =>
    refine (transactWith_eq hpublish w names _).trans ?_
    simp only [store_inquireAll]
    rfl

theorem store_react (habit : Nat → Collections → Habit) (key : Text) (response : Response)
    (n : Nat)
    (w : Tracked) :
    (react publish habit key response n w).store = Store.react publish' key response w.store := by
  induction response generalizing n w with
  | nothing => exact store_inquireAll w _
  | fail => exact store_inquireAll w _
  | leave => simp only [react, Store.react, store_inquireAll]
  | step step next ih =>
    have heq := take_eq hpublish (habit n w.store.collections).inside
      (w.inquireAll (habit n w.store.collections).before) step
    rw [store_inquireAll] at heq
    simp only [react, Store.react, ih, ← heq]

theorem store_call (t : Transaction) (w : Tracked) (listener : Listener) :
    (call habits publish t w listener).store = Store.call publish' t w.store listener :=
  store_react hpublish (habits listener t) listener.key _ 0 _

theorem store_foldl_call (t : Transaction) (listeners : List Listener) (w : Tracked) :
    (listeners.foldl (call habits publish t) w).store =
      listeners.foldl (Store.call publish' t) w.store := by
  induction listeners generalizing w with
  | nil => rfl
  | cons listener rest ih =>
    rw [List.foldl_cons, List.foldl_cons, ih, store_call hpublish]

end Publish

theorem store_publish [Limits] (fuel : Nat) (w : Tracked) (t : Transaction) :
    (w.publish habits fuel t).store = w.store.publish fuel t := by
  induction fuel generalizing w t with
  | zero => rfl
  | succ fuel ih => exact store_foldl_call (fun w t => ih w t) t w.store.listeners w

theorem transact_eq [Limits] (w : Tracked) (names : List Text)
    (mutate : List View → Tracked → Except Failure (α × List View) × Tracked) :
    ((w.transact habits names mutate).1, (w.transact habits names mutate).2.store) =
      w.store.transact names fun views store =>
        ((mutate views { w with store }).1, (mutate views { w with store }).2.store) :=
  transactWith_eq (store_publish Limits.maxPublications) w names mutate

end Listeners

structure Sound [Limits] (w : Tracked) : Prop where
  trackers : ∀ t ∈ w.trackers, t.Current w.store
  asked : ∀ asked ∈ w.asked, asked.1.Current asked.2

theorem sound_new [Limits] (s : Store) : (new s).Sound :=
  ⟨fun _ h => (List.not_mem_nil h).elim, fun _ h => (List.not_mem_nil h).elim⟩

namespace Sound

variable [Limits] {α : Type} {w : Tracked}
  {habits : Listener → Transaction → Nat → Collections → Habit}

theorem dated (h : w.Sound) (store : Store) (hdates : w.store.Dates .props store) :
    { w with store }.Sound :=
  ⟨fun t ht => (h.trackers t ht).step hdates, h.asked⟩

theorem inquire (h : w.Sound) (inquiry : Inquiry) : (w.inquire inquiry).2.Sound := by
  cases inquiry with
  | track effects =>
    refine ⟨?_, h.asked⟩
    intro t ht
    rcases List.mem_append.mp ht with hold | hnew
    . exact h.trackers t hold
    . rw [List.mem_singleton.mp hnew]
      exact Tracker.current_new effects w.store
  | ask i =>
    simp only [Tracked.inquire]
    split
    . exact h
    . next t hget =>
      have hcurrent : t.Current w.store := h.trackers t (List.mem_of_getElem? hget)
      constructor
      . intro other hother
        rcases List.mem_or_eq_of_mem_set hother with hold | rfl
        . exact h.trackers other hold
        . exact (Tracker.current_used hcurrent).1
      . intro asked hasked
        rcases List.mem_append.mp hasked with hold | hnew
        . exact h.asked asked hold
        . rw [List.mem_singleton.mp hnew]
          exact hcurrent

theorem inquireAll (h : w.Sound) (inquiries : List Inquiry) :
    (w.inquireAll inquiries).Sound := by
  induction inquiries generalizing w with
  | nil => exact h
  | cons inquiry rest ih => exact ih (h.inquire inquiry)

section Publish

variable {publish : Tracked → Transaction → Tracked}
  (hpublish : ∀ w t, w.Sound → (publish w t).Sound)
include hpublish

theorem settle (h : w.Sound) (views : List View) : (w.settle publish views).Sound := by
  have hidle := h.dated { w.store with inTransaction := false } (.inl ⟨rfl, rfl⟩)
  have htaken := hidle.dated _ (Store.dates_takeOverAll .props _ views)
  unfold Tracked.settle
  split
  . next t store heq =>
    rw [heq] at htaken
    exact hpublish _ t htaken
  . next store heq =>
    rw [heq] at htaken
    exact htaken

theorem transactWith {names : List Text}
    {mutate : List View → Tracked → Except Failure (α × List View) × Tracked} (h : w.Sound)
    (hmutate : ∀ views w, w.Sound → (mutate views w).2.Sound) :
    (w.transactWith publish names mutate).2.Sound := by
  unfold Tracked.transactWith
  cases hbegin : w.store.begin names with
  | error failure => exact h
  | ok result =>
    obtain ⟨views, store⟩ := result
    obtain ⟨rfl, -, -⟩ := Store.begin_eq_ok hbegin
    have hbegun := h.dated { w.store with inTransaction := true } (.inl ⟨rfl, rfl⟩)
    have hmutated := hmutate views _ hbegun
    rcases hresult : mutate views { w with store := { w.store with inTransaction := true } } with
      ⟨_ | ⟨a, staged⟩, w'⟩
    . rw [hresult] at hmutated
      simp only [hresult]
      exact hmutated.dated _ (.inl ⟨rfl, rfl⟩)
    . rw [hresult] at hmutated
      simp only [hresult]
      exact settle hpublish hmutated staged

theorem take (h : w.Sound) (inside : List Inquiry) (step : Step Listener) :
    (w.take publish inside step).2.Sound := by
  cases step with
  | subscribe listener => exact h.dated _ (.inl ⟨rfl, rfl⟩)
  | unsubscribe key => exact h.dated _ (.inl ⟨rfl, rfl⟩)
  | transact names mutate =>
    exact transactWith hpublish h fun views w hw => hw.inquireAll inside

theorem react (h : w.Sound) (habit : Nat → Collections → Habit) (key : Text)
    (response : Response) (n : Nat) : (w.react publish habit key response n).Sound := by
  induction response generalizing n w with
  | nothing => exact h.inquireAll _
  | fail => exact h.inquireAll _
  | leave => exact (h.inquireAll _).dated _ (.inl ⟨rfl, rfl⟩)
  | step step next ih => exact ih _ _ (take hpublish (h.inquireAll _) _ step) (n + 1)

theorem call (t : Transaction) (h : w.Sound) (listener : Listener) :
    (w.call habits publish t listener).Sound := by
  have htold := h.dated { w.store with
    deliveries := w.store.deliveries ++ [⟨listener.label, t.id⟩] } (.inl ⟨rfl, rfl⟩)
  exact react hpublish htold (habits listener t) listener.key _ 0

theorem foldl_call (t : Transaction) (listeners : List Listener) (h : w.Sound) :
    (listeners.foldl (Tracked.call habits publish t) w).Sound := by
  induction listeners generalizing w with
  | nil => exact h
  | cons listener rest ih => exact ih (call hpublish t h listener)

end Publish

theorem publish (fuel : Nat) (t : Transaction) (h : w.Sound) :
    (w.publish habits fuel t).Sound := by
  induction fuel generalizing w t with
  | zero => exact h
  | succ fuel ih => exact foldl_call (fun w t h => ih t h) t w.store.listeners h

theorem transact {names : List Text}
    {mutate : List View → Tracked → Except Failure (α × List View) × Tracked} (h : w.Sound)
    (hmutate : ∀ views w, w.Sound → (mutate views w).2.Sound) :
    (w.transact habits names mutate).2.Sound :=
  transactWith (fun _ t hw => hw.publish Limits.maxPublications t) h hmutate

end Sound

end Tracked

/--
A program that works on a store and the trackers on it. Inside of a transaction it is a mutator,
which edits its views, may fail and may call trackers too. Outside of one it has no views, for they
do not outlive their transaction.
-/
inductive Activity (α : Type) where
  | done (a : α)
  | fail (failure : Failure)
  | look (next : List View → Store → Activity α)
  | write (i : Nat) (edit : ViewEdit) (next : Except Failure Unit → Activity α)
  | inquire (inquiry : Inquiry) (next : Option (Except Failure (List Text)) → Activity α)
  /-- Run a transaction and go on by what has come of it. -/
  | transact (names : List Text) (inner : Activity α) (next : Except Failure α → Activity α)

variable [Limits]

namespace Activity

variable {α : Type} (habits : Listener → Transaction → Nat → Collections → Habit)

def run : Activity α → List View → Tracked → Except Failure (α × List View) × Tracked
  | .done a, views, w => (.ok (a, views), w)
  | .fail failure, _, w => (.error failure, w)
  | .look next, views, w => run (next views w.store) views w
  | .write i edit next, views, w =>
    match views[i]?.map edit.apply with
    | none => run (next (.ok ())) views w
    | some (.ok view) => run (next (.ok ())) (views.set i view) w
    | some (.error failure) => run (next (.error failure)) views w
  | .inquire inquiry next, views, w =>
    let (answer, w) := w.inquire inquiry
    run (next answer) views w
  | .transact names inner next, views, w =>
    let (result, w) := w.transact habits names fun views w => run inner views w
    run (next result) views w

variable {habits}

theorem sound_run (activity : Activity α) (views : List View) {w : Tracked} (h : w.Sound) :
    (activity.run habits views w).2.Sound := by
  induction activity generalizing views w with
  | done a => exact h
  | fail failure => exact h
  | look next ih => exact ih views w.store views h
  | write i edit next ih =>
    simp only [run]
    split
    . exact ih _ _ h
    . exact ih _ _ h
    . exact ih _ _ h
  | inquire inquiry next ih => exact ih _ views (h.inquire inquiry)
  | transact names inner next ihinner ihnext =>
    exact ihnext _ views (h.transact fun views w hw => ihinner views hw)

/--
Whenever a tracker is asked, it answers what a scan of the props finds at that time. The trackers
may be made at any time, with any effects, and asked between the transactions, by mutators and by
listeners.
-/
theorem answersAsScan_run (habits : Listener → Transaction → Nat → Collections → Habit)
    (activity : Activity α) (s : Store) :
    (∀ asked ∈ (activity.run habits [] (.new s)).2.asked, asked.1.AnswersAsScan asked.2) ∧
      ∀ t ∈ (activity.run habits [] (.new s)).2.trackers,
        t.AnswersAsScan (activity.run habits [] (.new s)).2.store := by
  have hsound : (activity.run habits [] (.new s)).2.Sound :=
    sound_run activity [] (Tracked.sound_new s)
  constructor
  . intro asked hasked
    exact (hsound.asked asked hasked).answersAsScan
  . intro t ht
    exact (hsound.trackers t ht).answersAsScan

end Activity

end PageBinding
