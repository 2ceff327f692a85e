import PageBinding.Proofs.Service.Loadable
import PageBinding.Proofs.Workspace.Problems

/-!
This module contains the seats of the variables: what decides from where each of them is seen. No
operation moves a variable to another seat, and those of parameters are never taken or given up,
even where an operation is given variables as they have been stored before.
-/

namespace PageBinding

structure Seat where
  id : Text
  scope : Text
  isParameter : Bool
  deriving DecidableEq

def Variable.seat (v : Variable) : Seat :=
  ⟨v.id, v.scope, v.isParameter⟩

theorem Variable.eq_of_seat_eq {u v : Variable} (hu : u.isParameter = true)
    (h : v.seat = u.seat) : v = { u with name := v.name } := by
  obtain ⟨id, name, scope, content⟩ := u
  obtain ⟨id', name', scope', content'⟩ := v
  simp only [seat, Seat.mk.injEq] at h
  obtain ⟨rfl, rfl, hparameter⟩ := h
  rw [hu] at hparameter
  cases content <;> cases hu
  cases content' <;> cases hparameter
  rfl

def Collections.seats (c : Collections) : List Seat :=
  c.variableList.map Variable.seat

theorem Entries.filterMap_put {α β : Type} {f : α → Option β} {key : Text} {a b : α}
    {entries : List (Text × α)} (hlookup : lookup key entries = some b) (h : f a = f b) :
    ((put key a entries).map Prod.snd).filterMap f = (entries.map Prod.snd).filterMap f := by
  induction entries with
  | nil => cases hlookup
  | cons entry rest ih =>
    obtain ⟨k, other⟩ := entry
    by_cases hk : k = key
    . simp only [lookup, hk, if_true, Option.some.injEq] at hlookup
      simp [put, hk, List.filterMap_cons, h, hlookup]
    . simp only [lookup, hk, if_false] at hlookup
      simp [put, hk, List.filterMap_cons, ih hlookup]

namespace Collections

variable {c : Collections}

theorem mem_seats_iff {seat : Seat} : seat ∈ c.seats ↔ ∃ v ∈ c.variableList, v.seat = seat :=
  List.mem_map

theorem seats_eq_filterMap (c : Collections) :
    c.seats = c.vars.values.filterMap fun entity => entity.asVariable?.map Variable.seat := by
  rw [seats, variableList, List.map_filterMap]

theorem seats_congr {d : Collections} (h : d.vars = c.vars) : d.seats = c.seats := by
  rw [seats, seats, variableList, variableList, h]

theorem seats_replace {d : Collections} {id : Text} {existing v : Variable}
    (hget : c.vars.get? id = some (.variable_ existing)) (hseat : v.seat = existing.seat)
    (h : d.vars = c.vars.insert id (.variable_ v)) : d.seats = c.seats := by
  rw [seats_eq_filterMap, seats_eq_filterMap, h]
  exact Entries.filterMap_put hget (by simp [Entity.asVariable?, hseat])

theorem seats_append {d : Collections} {id : Text} {v : Variable}
    (hget : c.vars.get? id = none) (h : d.vars = c.vars.insert id (.variable_ v)) :
    d.seats = c.seats ++ [v.seat] := by
  have hvalues := Collection.values_insert_of_get?_eq_none hget (Entity.variable_ v)
  rw [seats_eq_filterMap, seats_eq_filterMap, h, hvalues]
  simp [Entity.asVariable?]

namespace Filed

variable (h : c.Filed)
include h

theorem nodup_seats : (c.seats.map Seat.id).Nodup := by
  have hnodup := (h .vars).nodup_filterMap Entity.asVariable? fun _ => rfl
  rw [seats, List.map_map]
  exact hnodup

theorem seat_ext {a b : Seat} (ha : a ∈ c.seats) (hb : b ∈ c.seats) (hid : a.id = b.id) :
    a = b :=
  List.inj_on_of_nodup_map h.nodup_seats ha hb hid

theorem seat_of_get? {id : Text} {v : Variable} (hget : c.vars.get? id = some (.variable_ v)) :
    v.seat ∈ c.seats ∧ v.id = id := by
  obtain ⟨_, heq, hid⟩ := h .vars id _ hget
  cases heq
  refine ⟨List.mem_map_of_mem ?_, hid⟩
  rw [mem_variableList_iff, Collection.mem_values_iff]
  exact ⟨id, hget⟩

theorem contains_iff_seat {id : Text} :
    c.vars.contains id = true ↔ ∃ seat ∈ c.seats, seat.id = id := by
  rw [Collection.contains_iff]
  constructor
  . rintro ⟨entity, hget⟩
    obtain ⟨v, rfl, -⟩ := h .vars id entity hget
    exact ⟨v.seat, h.seat_of_get? hget⟩
  . rintro ⟨seat, hmem, rfl⟩
    obtain ⟨v, hv, rfl⟩ := mem_seats_iff.mp hmem
    exact ⟨_, h.get?_vars_of_mem (mem_variableList_iff.mp hv)⟩

theorem seats_erase {d : Collections} {id : Text} (hd : d.vars = c.vars.erase id) :
    d.seats = c.seats.filter fun seat => seat.id ≠ id := by
  have hentries : c.variableList.map (fun v => (v.id, Entity.variable_ v)) = c.vars.entries :=
    (h .vars).map_filterMap_values Entity.asVariable? fun _ => rfl
  have hvalues : (c.vars.erase id).values =
      (c.variableList.filter fun v => v.id ≠ id).map Entity.variable_ := by
    have hfilter := List.filter_map (f := fun v : Variable => (v.id, Entity.variable_ v))
      (p := fun entry => decide (entry.1 ≠ id)) (l := c.variableList)
    rw [hentries] at hfilter
    rw [Collection.values, Collection.erase]
    simp only [hfilter, List.map_map]
    rfl
  rw [seats_eq_filterMap, hd, hvalues, List.filterMap_map, seats, List.filter_map]
  exact congrFun List.filterMap_eq_map _

end Filed

end Collections

def Seat.isSeen (tree : InstanceTree) (collectionComponent : Text) (selector : Option Selector)
    (seat : Seat) : Bool :=
  match selector with
  | none | some [] => false
  | some (instanceId :: ancestors) =>
    !(seat.isParameter && seat.scope = instanceId &&
      tree.componentOf? instanceId = some collectionComponent) &&
      seat.scope ∈ instanceId :: ancestors

theorem Scope.map_id_visible (tree : InstanceTree) (collectionComponent : Text)
    (selector : Option Selector) (vars : List Variable) :
    (visible tree collectionComponent selector vars).map Variable.id =
      ((vars.map Variable.seat).filter
        (Seat.isSeen tree collectionComponent selector)).map Seat.id := by
  rw [List.filter_map, List.map_map]
  unfold visible
  split
  . simp [Seat.isSeen]
  . simp [Seat.isSeen]
  . rfl

theorem Service.visible_eq {s : Service} (h : s.store.collections.Filed)
    (selector : Option Selector) :
    ∃ seen, s.visible selector = .ok seen ∧ seen.map Variable.id =
      (s.store.collections.seats.filter
        (Seat.isSeen s.store.instances s.settings.collectionComponent selector)).map Seat.id := by
  cases selector with
  | none => exact ⟨[], rfl, by simp [Seat.isSeen]⟩
  | some selector =>
    exact ⟨_, Edit.visible_eq h s.settings.collectionComponent selector,
      Scope.map_id_visible _ _ _ _⟩

/--
What an operation may do to the seats: leave them, give a new one to a variable that is not a
parameter, or, if it deletes, take away the one of such a variable.
-/
inductive Seating (op : Operation) (before : List Seat) : List Seat → Prop where
  | stays : Seating op before before
  | joins {seat : Seat} : seat.isParameter = false → (∀ other ∈ before, other.id ≠ seat.id) →
      Seating op before (before ++ [seat])
  | leaves {id : Text} : op = .delete id →
      (∀ seat ∈ before, seat.id = id → seat.isParameter = false) →
      Seating op before (before.filter fun seat => seat.id ≠ id)

namespace Seating

variable {op : Operation} {before after : List Seat}

theorem parameters_eq (h : Seating op before after) :
    after.filter Seat.isParameter = before.filter Seat.isParameter := by
  cases h with
  | stays => rfl
  | joins hparameter _ => simp [hparameter]
  | @leaves id _ hfree =>
    rw [List.filter_filter]
    apply List.filter_congr
    intro seat hmem
    by_cases hid : seat.id = id
    . simp [hid, hfree seat hmem hid]
    . simp [hid]

theorem mem_of_id_eq (h : Seating op before after) {seat other : Seat} (hseat : seat ∈ after)
    (hother : other ∈ before) (hid : other.id = seat.id) : seat ∈ before := by
  cases h with
  | stays => exact hseat
  | joins _ hfresh =>
    rcases List.mem_append.mp hseat with hmem | hmem
    . exact hmem
    . rw [List.mem_singleton] at hmem
      subst hmem
      exact absurd hid (hfresh other hother)
  | leaves _ _ => exact (List.mem_filter.mp hseat).1

theorem appends (h : Seating op before after) (hop : ∀ id, op ≠ .delete id) :
    ∃ new : List Seat, new.length ≤ 1 ∧ after = before ++ new := by
  cases h with
  | stays => exact ⟨[], by simp, by simp⟩
  | joins _ _ => exact ⟨[_], by simp, rfl⟩
  | leaves heq _ => exact absurd heq (hop _)

end Seating

namespace Operation

variable {s : Service} {op : Operation}

/--
An operation does not save a variable under the id of a parameter.
-/
def SparesParameters (s : Service) (op : Operation) : Prop :=
  ∀ id kept, op.target? s.store = some (id, kept) →
    ∀ seat ∈ s.store.collections.seats, seat.id = id → seat.isParameter = false

theorem seating_of_renames {c d : Collections} {v : Variable} {name : Text}
    {saved : Variable} {w : Edit.Write} (hrenames : Edit.Renames c v name saved w)
    (hd : d.vars = (w.apply c).vars) : Seating op c.seats d.seats := by
  obtain ⟨rfl, existing, hget, rfl⟩ := hrenames
  rw [Collections.seats_replace hget (v := { existing with name }) rfl hd]
  exact .stays

theorem seating_of_saves {d : Collections} (h : s.store.collections.Filed)
    {selector : Option Selector} {v : Option Variable} {name : Text} {saved : Variable}
    {resource : Option Resource} (hsaves : Edit.Saves s.store selector v name saved)
    (hcontent : saved.isParameter = false)
    (hfree : ∀ seat ∈ s.store.collections.seats, seat.id = saved.id → seat.isParameter = false)
    (hd : d.vars = ((Edit.Write.save saved resource).apply s.store.collections).vars) :
    Seating op s.store.collections.seats d.seats := by
  rw [Edit.Write.vars_apply_save] at hd
  obtain ⟨instanceId, -, -, hscope⟩ := hsaves.scope
  rcases Edit.scopeFor_cases h hscope with ⟨hnew, -⟩ | ⟨existing, hget, hsame⟩
  . rw [Collections.seats_append (Collection.contains_eq_false_iff.mp hnew) hd]
    refine .joins hcontent fun other hmem (hid : other.id = saved.id) => ?_
    rw [h.contains_iff_seat.mpr ⟨other, hmem, hid⟩] at hnew
    cases hnew
  . obtain ⟨hmem, hid⟩ := h.seat_of_get? hget
    have hparameter : existing.isParameter = false := hfree existing.seat hmem hid
    have hseat : saved.seat = existing.seat := by
      rw [Variable.seat, Variable.seat, hcontent, hparameter, hsame, hid]
    rw [Collections.seats_replace hget hseat hd]
    exact .stays

theorem seating_of_savesAs {d : Collections} (h : s.store.collections.Filed)
    {selector : Option Selector} {v : Option Variable} {name : Text} {content : Content → Prop}
    {resource : Option Resource} {saved : Variable} {w : Edit.Write}
    (hcontent : ¬ content .parameter) (hspares : op.SparesParameters s)
    (hop : op.saving? = some (v, resource))
    (hsaves : Edit.SavesAs s.store selector v name content resource saved w)
    (hd : d.vars = (w.apply s.store.collections).vars) :
    Seating op s.store.collections.seats d.seats := by
  have hsaves' := hsaves
  unfold Edit.SavesAs at hsaves
  split at hsaves
  . exact seating_of_renames hsaves hd
  . obtain ⟨hsaved, hheld, rfl⟩ := hsaves
    have hparameter : saved.isParameter = false := by
      unfold Variable.isParameter
      cases hkind : saved.content with
      | value value => rfl
      | resource id => rfl
      | parameter => exact absurd (hkind ▸ hheld) hcontent
    exact seating_of_saves h hsaved hparameter (hspares _ _ (target?_of_savesAs hop hsaves')) hd

theorem seating_of_same {c d : Collections} (hd : d.vars = c.vars) :
    Seating op c.seats d.seats := by
  rw [Collections.seats_congr hd]
  exact .stays

theorem vars_apply_of_resets {selector : Option Selector} {propertyId : Option Text} {name : Text}
    {p : Option Property} {w : Edit.Write}
    (h : Edit.Resets s.store selector propertyId name p w) (c : Collections) :
    (w.apply c).vars = c.vars := by
  cases h with
  | starts _ hsets =>
    rw [hsets.write]
    rfl
  | erases _ => rfl
  | nothing _ => rfl

theorem seating_of_allows [Limits] {d : Collections} (h : s.store.collections.Filed)
    (hspares : op.SparesParameters s) {result : Result} {w : Edit.Write}
    (hallows : Allows s op result w) (hd : d.vars = (w.apply s.store.collections).vars) :
    Seating op s.store.collections.seats d.seats := by
  cases hallows with
  | save hsaves => exact seating_of_savesAs h nofun hspares rfl hsaves hd
  | saveResource hsaves => exact seating_of_savesAs h nofun hspares rfl hsaves hd
  | rename hrenames => exact seating_of_renames hrenames hd
  | delete hentity _ hdeletable =>
    obtain ⟨v, hget, hparameter, -⟩ := Edit.deletable_cases h hentity hdeletable
    rw [h.seats_erase hd]
    refine .leaves rfl fun seat hmem hid => ?_
    obtain ⟨hv, hvid⟩ := h.seat_of_get? hget
    rw [h.seat_ext hmem hv (hid.trans hvid.symm)]
    exact hparameter
  | bind _ _ _ hsets =>
    rw [hsets.write] at hd
    exact seating_of_same hd
  | setExpression _ _ _ hsets =>
    rw [hsets.write] at hd
    exact seating_of_same hd
  | blank hresets => exact seating_of_same (hd.trans (vars_apply_of_resets hresets _))
  | removeExpression hresets => exact seating_of_same (hd.trans (vars_apply_of_resets hresets _))

theorem seating_perform [Limits] (h : s.store.collections.Filed)
    (observe : ∀ listener ∈ s.store.listeners, listener.Observes)
    (hspares : op.SparesParameters s) :
    Seating op s.store.collections.seats (op.perform s).2.store.collections.seats := by
  obtain ⟨w, hallows, hedited⟩ := (performed op s).edited observe
  rcases Ledger.Edited.vars_cases (a := s.store.ledger) hedited with hsame | htaken
  . exact seating_of_same hsame
  . rcases hallows with rfl | ⟨result, hallows⟩
    . exact seating_of_same htaken
    . exact seating_of_allows h hspares hallows htaken

def stateAt [Limits] (s : Service) (ops : List Operation) (i : Nat) : Service :=
  performAll (ops.take i) s

/--
Every operation that saves a variable is given one that is stored then or has been stored before, or
it saves a new one under an id that is not in use.
-/
structure Recalls [Limits] (s : Service) (ops : List Operation) : Prop where
  known : ∀ i op v resource, ops[i]? = some op → op.saving? = some (some v, resource) →
    ∃ j ≤ i, v ∈ (stateAt s ops j).store.collections.variableList
  fresh : ∀ i op resource, ops[i]? = some op → op.saving? = some (none, resource) →
    (stateAt s ops i).store.collections.vars.contains (stateAt s ops i).store.takeId.1 = false

theorem stateAt_succ [Limits] {ops : List Operation} {i : Nat} (h : ops[i]? = some op) :
    stateAt s ops (i + 1) = (op.perform (stateAt s ops i)).2 := by
  rw [stateAt, List.take_add_one, h, Option.toList_some, performAll_append_singleton]
  rfl

theorem stateAt_succ_of_eq_none [Limits] {ops : List Operation} {i : Nat} (h : ops[i]? = none) :
    stateAt s ops (i + 1) = stateAt s ops i := by
  rw [stateAt, List.take_add_one, h, Option.toList_none, List.append_nil]
  rfl

section Run

variable [Limits] {p : Project} {ops : List Operation}

theorem placed_stateAt (h : s.Placed p) (i : Nat) : (stateAt s ops i).Placed p :=
  placed_performAll h (ops.take i)

-- A parameter that is stored now has been there with the same id when the variable was stored that
-- an operation is given, so that variable cannot be another one with this id.
theorem sparesParameters_stateAt (h : s.Placed p) (recalls : Recalls s ops) {i : Nat}
    (hop : ops[i]? = some op)
    (hsame : ∀ j ≤ i, (stateAt s ops i).store.collections.seats.filter Seat.isParameter =
      (stateAt s ops j).store.collections.seats.filter Seat.isParameter) :
    op.SparesParameters (stateAt s ops i) := by
  intro id kept htarget seat hseat hid
  unfold target? at htarget
  split at htarget
  . cases htarget
  . next v resource hsaving =>
    split at htarget
    . cases htarget
    . next hfilter =>
      cases htarget
      cases v with
      | none =>
        have hcontains := (placed_stateAt h i).collections.filed.contains_iff_seat.mpr
          ⟨seat, hseat, hid⟩
        rw [Option.map_none, Option.getD_none,
          recalls.fresh i op resource hop hsaving] at hcontains
        cases hcontains
      | some v =>
        obtain ⟨j, hj, hv⟩ := recalls.known i op v resource hop hsaving
        cases hparameter : seat.isParameter with
        | false => rfl
        | true =>
          have hmem := List.mem_filter.mpr ⟨hseat, hparameter⟩
          rw [hsame j hj] at hmem
          have heq : seat = v.seat := (placed_stateAt h j).collections.filed.seat_ext
            (List.mem_filter.mp hmem).1 (List.mem_map_of_mem hv) hid
          rw [heq] at hparameter
          simp [Option.filter, show v.isParameter = true from hparameter] at hfilter

theorem seating_stateAt (h : s.Placed p) (recalls : Recalls s ops) {i : Nat}
    (hop : ops[i]? = some op)
    (hsame : ∀ j ≤ i, (stateAt s ops i).store.collections.seats.filter Seat.isParameter =
      (stateAt s ops j).store.collections.seats.filter Seat.isParameter) :
    Seating op (stateAt s ops i).store.collections.seats
      (stateAt s ops (i + 1)).store.collections.seats := by
  rw [stateAt_succ hop]
  exact seating_perform (placed_stateAt h i).collections.filed (placed_stateAt h i).observe
    (sparesParameters_stateAt h recalls hop hsame)

theorem parameters_stateAt (h : s.Placed p) (recalls : Recalls s ops) (i : Nat) :
    ∀ j ≤ i, (stateAt s ops i).store.collections.seats.filter Seat.isParameter =
      (stateAt s ops j).store.collections.seats.filter Seat.isParameter := by
  induction i with
  | zero =>
    intro j hj
    rw [Nat.le_zero.mp hj]
  | succ i ih =>
    have hstep : (stateAt s ops (i + 1)).store.collections.seats.filter Seat.isParameter =
        (stateAt s ops i).store.collections.seats.filter Seat.isParameter := by
      cases hop : ops[i]? with
      | none => rw [stateAt_succ_of_eq_none hop]
      | some op => exact (seating_stateAt h recalls hop ih).parameters_eq
    intro j hj
    rcases Nat.lt_or_eq_of_le hj with hlt | rfl
    . rw [hstep, ih j (Nat.le_of_lt_succ hlt)]
    . rfl

theorem scope_stateAt (h : s.Placed p) (recalls : Recalls s ops) {i j : Nat} (hij : i ≤ j)
    {seat other : Seat} (hseat : seat ∈ (stateAt s ops i).store.collections.seats)
    (hstays : ∀ k, i ≤ k → k ≤ j →
      (stateAt s ops k).store.collections.vars.contains seat.id = true)
    (hother : other ∈ (stateAt s ops j).store.collections.seats) (hid : other.id = seat.id) :
    other = seat := by
  induction j, hij using Nat.le_induction generalizing other with
  | base => exact (placed_stateAt h i).collections.filed.seat_ext hother hseat hid
  | succ j hij ih =>
    obtain ⟨between, hbetween, hsame⟩ :=
      (placed_stateAt h j).collections.filed.contains_iff_seat.mp
        (hstays j hij (Nat.le_succ j))
    have hmem : other ∈ (stateAt s ops j).store.collections.seats := by
      cases hop : ops[j]? with
      | none => rwa [stateAt_succ_of_eq_none hop] at hother
      | some op =>
        have hseating := seating_stateAt h recalls hop (parameters_stateAt h recalls j)
        exact hseating.mem_of_id_eq hother hbetween (hsame.trans hid.symm)
    exact ih (fun k hik hkj => hstays k hik (Nat.le_succ_of_le hkj)) hmem hid

theorem visible_stateAt (h : s.Placed p) (recalls : Recalls s ops) {i : Nat}
    (hop : ops[i]? = some op) (hdelete : ∀ id, op ≠ .delete id) (selector : Option Selector) :
    ∃ seen seen' new, (stateAt s ops i).visible selector = .ok seen ∧
      (stateAt s ops (i + 1)).visible selector = .ok seen' ∧
      seen'.map Variable.id = seen.map Variable.id ++ new ∧ new.length ≤ 1 := by
  have hseating := seating_stateAt h recalls hop (parameters_stateAt h recalls i)
  obtain ⟨seen, hseen, hids⟩ := Service.visible_eq (placed_stateAt h i).collections.filed selector
  obtain ⟨seen', hseen', hids'⟩ :=
    Service.visible_eq (placed_stateAt h (i + 1)).collections.filed selector
  obtain ⟨new, hlength, happend⟩ := hseating.appends hdelete
  have htree : (stateAt s ops (i + 1)).store.instances = (stateAt s ops i).store.instances :=
    (placed_stateAt h (i + 1)).instances.trans (placed_stateAt h i).instances.symm
  have hsettings : (stateAt s ops (i + 1)).settings = (stateAt s ops i).settings := by
    rw [stateAt_succ hop]
    exact (performed op _).settings
  rw [happend, htree, hsettings, List.filter_append, List.map_append, ← hids] at hids'
  refine ⟨seen, seen', _, hseen, hseen', hids', ?_⟩
  rw [List.length_map]
  exact (List.length_filter_le _ _).trans hlength

end Run

/--
On the store of an accepted project, under operations that recall what they are given: every
parameter of the project stays, and only its name can change; there are no other parameters; a
variable keeps its scope as long as it stays; and an operation that deletes nothing leaves what is
seen from anywhere in place, with at most one new variable at the end.
-/
theorem performAll_seats [Limits] (p : Project) (settings : Settings)
    (ids transactionIds : IdSupply)
    (ops : List Operation) (h : p.check = .ok p)
    (recalls : Recalls (.new (p.toStore ids transactionIds) settings) ops) :
    let state (i : Nat) := stateAt (.new (p.toStore ids transactionIds) settings) ops i
    let vars (i : Nat) := (state i).store.collections.variableList
    (∀ parameter ∈ p.vars, parameter.isParameter = true →
      ∀ i, ∃ name, { parameter with name } ∈ vars i) ∧
    (∀ i, ∀ v ∈ vars i, v.isParameter = true →
      ∃ parameter ∈ p.vars, ∃ name, v = { parameter with name }) ∧
    (∀ i j, i ≤ j → ∀ v ∈ vars i,
      (∀ k, i ≤ k → k ≤ j → (state k).store.collections.vars.contains v.id = true) →
        ∀ w ∈ vars j, w.id = v.id → w.scope = v.scope) ∧
    ∀ i op selector, ops[i]? = some op → (∀ id, op ≠ .delete id) →
      ∃ seen seen' new, (state i).visible selector = .ok seen ∧
        (state (i + 1)).visible selector = .ok seen' ∧
        seen'.map Variable.id = seen.map Variable.id ++ new ∧ new.length ≤ 1 := by
  have hconflict := Project.check_eq_ok_iff.mp h
  have hplaced : Service.Placed p (.new (p.toStore ids transactionIds) settings) :=
    ⟨Project.placed_toCollections hconflict, rfl, fun _ hmem => absurd hmem List.not_mem_nil⟩
  have hstart : p.toCollections.variableList = p.vars := (Project.lists_toCollections hconflict).1
  have hparameters := fun i => parameters_stateAt hplaced recalls i 0 (Nat.zero_le i)
  intro state vars
  refine ⟨?_, ?_, ?_, ?_⟩
  . intro parameter hmem hparameter i
    have hseat : parameter.seat ∈ (state i).store.collections.seats.filter Seat.isParameter := by
      rw [hparameters i, List.mem_filter]
      refine ⟨List.mem_map_of_mem ?_, hparameter⟩
      exact hstart ▸ hmem
    obtain ⟨v, hv, heq⟩ := Collections.mem_seats_iff.mp (List.mem_filter.mp hseat).1
    exact ⟨v.name, Variable.eq_of_seat_eq hparameter heq ▸ hv⟩
  . intro i v hv hparameter
    have hseat : v.seat ∈ (state i).store.collections.seats.filter Seat.isParameter :=
      List.mem_filter.mpr ⟨List.mem_map_of_mem hv, hparameter⟩
    rw [hparameters i] at hseat
    obtain ⟨u, hu, heq⟩ := Collections.mem_seats_iff.mp (List.mem_filter.mp hseat).1
    have huparameter : u.isParameter = true := (congrArg Seat.isParameter heq).trans hparameter
    exact ⟨u, hstart ▸ hu, v.name, Variable.eq_of_seat_eq huparameter heq.symm⟩
  . intro i j hij v hv hstays w hw hid
    have hseat := scope_stateAt hplaced recalls hij (List.mem_map_of_mem hv) hstays
      (List.mem_map_of_mem hw) hid
    exact congrArg Seat.scope hseat
  . intro i op selector hop hdelete
    exact visible_stateAt hplaced recalls hop hdelete selector

def rowProject : Project where
  instances := [⟨"page", "Page", none, none⟩, ⟨"rows", "Collection", none, some "page"⟩]
  vars := [⟨"item", "item", "rows", .parameter⟩, ⟨"title", "title", "page", .resource "r1"⟩]
  resources := [⟨"r1", "title", .get, "/title", [], none⟩]
  props := []

def rowService : Service :=
  .new (rowProject.toStore ⟨"v", 0⟩ ⟨"t", 0⟩) .default

/--
A new variable, a parameter that is given as it has been before it got another name, and a variable
that is given again after it has been deleted.
-/
def staleOperations : List Operation :=
  let posts : Resource := ⟨"r2", "posts", .get, "/posts", [], none⟩
  let item : Variable := ⟨"item", "item", "rows", .parameter⟩
  [.saveResource (some ["page"]) none "posts" posts,
    .saveResource (some ["rows"]) (some item) "row" posts,
    .saveResource (some ["page"]) (some item) "entry" posts,
    .delete "title",
    .saveResource (some ["rows"]) (some ⟨"title", "title", "page", .resource "r1"⟩) "title" posts]

theorem recalls_staleOperations : Recalls rowService staleOperations := by
  constructor
  . intro i op v resource hop hsaving
    refine ⟨0, Nat.zero_le i, ?_⟩
    have hmem : op ∈ staleOperations := List.mem_of_getElem? hop
    simp only [staleOperations, List.mem_cons, List.not_mem_nil, or_false] at hmem
    rcases hmem with rfl | rfl | rfl | rfl | rfl <;> cases hsaving <;> decide
  . intro i op resource hop hsaving
    match i with
    | 0 => decide
    | i + 1 =>
      have hmem : op ∈ staleOperations.tail := List.mem_of_getElem? (i := i) hop
      simp only [staleOperations, List.tail_cons, List.mem_cons, List.not_mem_nil, or_false] at hmem
      rcases hmem with rfl | rfl | rfl | rfl <;> cases hsaving

theorem performAll_seats_staleOperations :
    let state (i : Nat) := stateAt rowService staleOperations i
    let vars (i : Nat) := (state i).store.collections.variableList
    (∀ parameter ∈ rowProject.vars, parameter.isParameter = true →
      ∀ i, ∃ name, { parameter with name } ∈ vars i) ∧
    (∀ i, ∀ v ∈ vars i, v.isParameter = true →
      ∃ parameter ∈ rowProject.vars, ∃ name, v = { parameter with name }) ∧
    (∀ i j, i ≤ j → ∀ v ∈ vars i,
      (∀ k, i ≤ k → k ≤ j → (state k).store.collections.vars.contains v.id = true) →
        ∀ w ∈ vars j, w.id = v.id → w.scope = v.scope) ∧
    ∀ i op selector, staleOperations[i]? = some op → (∀ id, op ≠ .delete id) →
      ∃ seen seen' new, (state i).visible selector = .ok seen ∧
        (state (i + 1)).visible selector = .ok seen' ∧
        seen'.map Variable.id = seen.map Variable.id ++ new ∧ new.length ≤ 1 :=
  performAll_seats rowProject .default ⟨"v", 0⟩ ⟨"t", 0⟩ staleOperations (by decide)
    recalls_staleOperations

end Operation

end PageBinding
