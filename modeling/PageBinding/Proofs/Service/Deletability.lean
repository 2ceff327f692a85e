import Mathlib.Data.List.Forall2
import PageBinding.Proofs.Expression.Reference
import PageBinding.Proofs.Service.Informed
import PageBinding.Proofs.Usage.Mentions
import PageBinding.Proofs.Usage.Union
import PageBinding.VariableList

/-!
This module contains that all answers to the question whether a variable may be deleted are the
same: what the tracker says, whether it refuses, what the list of variables shows, and whether the
service deletes the variable when it is told to.
-/

namespace PageBinding

/--
A variable may be deleted for all that the props say: it is no parameter, and its identifier stands
in none of them.
-/
def Collections.Spares [Limits] (effects : List Text) (c : Collections) (v : Variable) : Prop :=
  v.isParameter = false ∧
    ∀ p ∈ c.propertyList, ¬ Usage.Mentions effects p (Reference.encode v.id)

variable {effects used : List Text} {s : Service} {v : Variable}

theorem Collections.mem_used_iff [Limits] {c : Collections}
    (hused : Usage.used (some effects) c.props.values = .ok used) {id : Text} (hne : id ≠ []) :
    id ∈ used ↔ ∃ p ∈ c.propertyList, Usage.Mentions effects p (Reference.encode id) := by
  rw [Usage.mem_used_iff hused]
  simp only [← Usage.refers_iff_mentions hne, Collections.mem_propertyList_iff]
  exact Iff.rfl

theorem Collections.spares_iff [Limits] {c : Collections}
    (hused : Usage.used (some effects) c.props.values = .ok used) (hne : v.id ≠ []) :
    c.Spares effects v ↔ v.isParameter = false ∧ v.id ∉ used := by
  rw [c.mem_used_iff hused hne, not_exists]
  simp only [not_and]
  exact Iff.rfl

namespace Service

structure Answers [Limits] (s : Service) (v : Variable) (spared : Prop) : Prop where
  asked : ∃ deletable, (s.isDeletable v).1 = .ok deletable ∧ (deletable = true ↔ spared)
  ensured : (s.tracker.ensureDeletable s.store (.variable_ v)).1 = .ok () ↔ spared
  deleted : (s.delete v.id).1 = .ok () ↔ spared

theorem Informed.used_eq [Limits] (h : s.Informed effects)
    (hused : Usage.used (some effects) s.store.collections.props.values = .ok used) :
    (s.tracker.used s.store).1 = .ok used := by
  rw [Tracker.used_eq h.current, h.allowed, hused]

/--
Asking whether a variable may be deleted gives the answer of a scan, and leaves the service as able
to answer as it was.
-/
theorem Informed.isDeletable [Limits] (h : s.Informed effects)
    (hused : Usage.used (some effects) s.store.collections.props.values = .ok used)
    (v : Variable) :
    (s.isDeletable v).1 = .ok (!v.isParameter && decide (v.id ∉ used)) ∧
      (s.isDeletable v).2.Informed effects ∧ (s.isDeletable v).2.store = s.store := by
  unfold Service.isDeletable ask Tracker.isDeletable
  cases v.isParameter with
  | true => exact ⟨rfl, h, rfl⟩
  | false =>
    obtain ⟨hallowed, hcurrent⟩ := h.asked (.inr rfl)
    refine ⟨?_, ⟨h.filed, hallowed, hcurrent, h.observe⟩, rfl⟩
    simp [Tracker.isUsed, h.used_eq hused, Except.map]

theorem ensureDeletable_eq_ok_iff :
    Usage.ensureDeletable used (.variable_ v) = .ok () ↔ v.isParameter = false ∧ v.id ∉ used := by
  unfold Usage.ensureDeletable
  cases hparameter : v.isParameter with
  | true => simp [hparameter]
  | false =>
    by_cases hmem : v.id ∈ used
    . simp [hparameter, hmem]
    . simp [hparameter, hmem]

variable [Limits]

theorem run_eraseVariable (idle : s.store.inTransaction = false) (variableId : Text) :
    (s.run (Edit.eraseVariable variableId)).1 = .ok () := by
  have hrun : (Edit.eraseVariable variableId).run s.store =
      s.store.edit [.vars]
        (fun c ids => .ok ((), { c with vars := c.vars.erase variableId }, ids)) fun _ => [] :=
    rfl
  rw [Service.run, hrun, Store.edit_eq_of_idle idle]

theorem delete_eq_ok_iff (h : s.Informed effects)
    (hused : Usage.used (some effects) s.store.collections.props.values = .ok used)
    (idle : s.store.inTransaction = false) (hv : v ∈ s.store.collections.variableList) :
    (s.delete v.id).1 = .ok () ↔ v.isParameter = false ∧ v.id ∉ used := by
  have hstored : Edit.requireVariable s.store.collections v.id = .ok (.variable_ v) := by
    have hget := h.filed.get?_vars_of_mem (Collections.mem_variableList_iff.mp hv)
    have hfound : s.store.collections.stored? .vars v.id = some (.variable_ v) :=
      Collections.stored?_eq_some hget (by simp)
    rw [Edit.requireVariable, hfound]
  rw [← ensureDeletable_eq_ok_iff]
  simp only [delete, hstored, ask, Tracker.ensureDeletable, h.used_eq hused, Except.bind]
  cases hensure : Usage.ensureDeletable used (.variable_ v) with
  | error failure => simp
  | ok _ => simp [run_eraseVariable (s := { s with tracker := (s.tracker.used s.store).2 }) idle]

theorem Informed.answers (h : s.Informed effects)
    (hused : Usage.used (some effects) s.store.collections.props.values = .ok used)
    (idle : s.store.inTransaction = false) (hv : v ∈ s.store.collections.variableList)
    (hne : v.id ≠ []) : s.Answers v (s.store.collections.Spares effects v) := by
  rw [Collections.spares_iff hused hne]
  constructor
  . exact ⟨_, (h.isDeletable hused v).1, by simp⟩
  . have hanswer : (s.tracker.ensureDeletable s.store (.variable_ v)).1 =
        (s.tracker.used s.store).1.bind fun ids => Usage.ensureDeletable ids (.variable_ v) := rfl
    rw [hanswer, h.used_eq hused, ← ensureDeletable_eq_ok_iff]
    rfl
  . exact delete_eq_ok_iff h hused idle hv

end Service

namespace VariableList

variable [Limits]

structure Row.Shows (used selected : List Text) (v : Variable) (row : Row) : Prop where
  variableId : row.variableId = v.id
  selected : row.selected = true ↔ v.id ∈ selected
  deletable : row.deletable = true ↔ v.isParameter = false ∧ v.id ∉ used

variable {values : List (Text × Value)} {selected : List Text}

theorem shows_row (h : s.Informed effects)
    (hused : Usage.used (some effects) s.store.collections.props.values = .ok used) {r : Row}
    (hrow : (row s values selected v).1 = .ok r) :
    r.Shows used selected v ∧ (row s values selected v).2.Informed effects ∧
      (row s values selected v).2.store = s.store := by
  obtain ⟨hdeletable, hinformed, hstore⟩ := h.isDeletable hused v
  unfold row at hrow ⊢
  dsimp only at hrow ⊢
  split at hrow
  . cases hrow
  . simp only [hdeletable, Except.map, Except.ok.injEq] at hrow
    subst hrow
    exact ⟨⟨rfl, by simp, by simp⟩, hinformed, hstore⟩

theorem shows_rowsOf {vars : List Variable} (h : s.Informed effects)
    (hused : Usage.used (some effects) s.store.collections.props.values = .ok used)
    {rows : List Row} (hrows : (rowsOf s values selected vars).1 = .ok rows) :
    List.Forall₂ (Row.Shows used selected) vars rows := by
  induction vars generalizing s rows with
  | nil =>
    cases hrows
    exact .nil
  | cons v rest ih =>
    rw [rowsOf] at hrows
    rcases hrow : row s values selected v with ⟨failure | first, service⟩
    . rw [hrow] at hrows
      cases hrows
    . rw [hrow] at hrows
      obtain ⟨others, hothers, rfl⟩ := Traversal.map_eq_ok_iff.mp hrows
      obtain ⟨hshows, hinformed, hstore⟩ := shows_row h hused (congrArg Prod.fst hrow)
      rw [hrow] at hinformed hstore
      exact .cons hshows (ih hinformed (by rw [hstore]; exact hused) hothers)

theorem shows_rows (h : s.Informed effects)
    (hused : Usage.used (some effects) s.store.collections.props.values = .ok used)
    {selector : Option Selector} {p : Option Property} {runtime : List (Text × Value)}
    {seen : List Variable} {rows : List Row} (hseen : s.visible selector = .ok seen)
    (hrows : (VariableList.rows s selector p runtime).1 = .ok rows) :
    ∃ selected, VariableList.selected p = .ok selected ∧
      List.Forall₂ (Row.Shows used selected) seen rows := by
  unfold VariableList.rows at hrows
  rw [hseen] at hrows
  cases hselected : VariableList.selected p with
  | error failure =>
    rw [hselected] at hrows
    cases hrows
  | ok selected =>
    rw [hselected] at hrows
    exact ⟨selected, rfl, shows_rowsOf h hused hrows⟩

theorem mem_used_of_selected {c : Collections}
    (hused : Usage.used (some effects) c.props.values = .ok used) {p : Property}
    (hp : p ∈ c.propertyList) (hselected : VariableList.selected (some p) = .ok selected)
    {id : Text} (hid : id ∈ selected) : id ∈ used := by
  unfold VariableList.selected at hselected
  split at hselected
  . next text hvalue =>
    refine (Usage.mem_used_iff hused).mpr ⟨p, Collections.mem_propertyList_iff.mp hp,
      .expression, text, ?_, (Usage.isScanned_of_ofText hselected).2 id |>.mp hid⟩
    rw [Usage.texts, Option.some.inj hvalue]
    exact List.mem_singleton_self _
  . cases hselected
    cases hid

end VariableList

namespace Operation

theorem idle_performAll [Limits] (idle : s.store.inTransaction = false) (ops : List Operation) :
    (performAll ops s).store.inTransaction = false := by
  unfold performAll
  induction ops generalizing s with
  | nil => exact idle
  | cons op rest ih => exact ih ((performed op s).follows.inTransaction.trans idle)

/--
After any operations on the store of a project, as long as its props can be scanned, all answers say
of a variable that it may be deleted if and only if the props spare it: those of the tracker, of the
service that is told to delete it, and of its row in the list of the variables that are seen. A row
that is selected for a prop of the store is never deletable.
-/
theorem performAll_deletable [Limits] (p : Project) (settings : Settings)
    (ids transactionIds : IdSupply)
    (listeners : List Listener) (ops : List Operation)
    (observe : ∀ listener ∈ listeners, listener.Observes) :
    let s := performAll ops (.new { p.toStore ids transactionIds with listeners } settings)
    let c := s.store.collections
    ∀ used, Usage.used (some settings.effects) c.props.values = .ok used →
      (∀ v ∈ c.variableList, v.id ≠ [] → s.Answers v (c.Spares settings.effects v)) ∧
      ∀ selector seen prop runtime rows, s.visible selector = .ok seen →
        (VariableList.rows s selector prop runtime).1 = .ok rows →
        List.Forall₂ (fun v row => row.variableId = v.id ∧
          (v.id ≠ [] → (row.deletable = true ↔ c.Spares settings.effects v)) ∧
          ∀ q ∈ c.propertyList, prop = some q → row.selected = true → row.deletable = false)
          seen rows := by
  intro s c used hused
  have hinformed : s.Informed settings.effects :=
    informed_performAll (Service.informed_new p settings ids transactionIds observe) ops
  have hidle : s.store.inTransaction = false := idle_performAll rfl ops
  constructor
  . exact fun v hv hne => hinformed.answers hused hidle hv hne
  . intro selector seen prop runtime rows hseen hrows
    obtain ⟨selected, hselected, hshows⟩ :=
      VariableList.shows_rows hinformed hused hseen hrows
    refine hshows.imp fun v row hrow => ⟨hrow.variableId, ?_, ?_⟩
    . intro hne
      rw [hrow.deletable, Collections.spares_iff hused hne]
    . rintro q hq rfl hchosen
      have hmem := VariableList.mem_used_of_selected hused hq hselected (hrow.selected.mp hchosen)
      rw [← Bool.not_eq_true, hrow.deletable]
      exact fun h => h.2 hmem

def welcome : Variable :=
  ⟨"title", "Title", "root", .value (.string "Welcome")⟩

def welcomeLabel : Property :=
  ⟨"p1", "root", "label", .expression (Reference.encode "title")⟩

/--
A page with a label that is bound to its variable, and a list on it.
-/
def welcomeProject : Project where
  instances := [⟨"root", "page", none, none⟩, ⟨"list", "ws:collection", none, some "root"⟩]
  vars := [welcome]
  resources := []
  props := [welcomeLabel]

def fetchedPosts : Resource :=
  ⟨"r1", "posts", .get, "/posts", [], none⟩

/--
The page with a new variable on the list, for a resource that is saved with it.
-/
def withPosts : Service :=
  performAll [.saveResource (some ["list", "root"]) none "Posts" fetchedPosts]
    (.new (welcomeProject.toStore ⟨"v", 0⟩ ⟨"tx-", 0⟩) .default)

def welcomePosts : Variable :=
  ⟨"v1", "Posts", "list", .resource "r1"⟩

theorem used_welcomeLabel (effects : List Text) :
    Usage.used (some effects) [.property welcomeLabel] = .ok ["title"] := by
  have hids := (Expression.isName_encode "title").referencedIds_eq
  rw [Reference.decode?_encode (by decide)] at hids
  have hlabel : Usage.ofEntity (some effects) (.property welcomeLabel) = .ok ["title"] := by
    simp [Usage.ofEntity, Usage.texts, welcomeLabel, Usage.ofText, hids]
  simp only [Usage.used, List.flatMapM_cons, List.flatMapM_nil, hlabel]
  rfl

theorem rows_withPosts (h : withPosts.Informed Settings.default.effects)
    (hprops : withPosts.store.collections.props.values = [.property welcomeLabel]) :
    (VariableList.rows withPosts (some ["root"]) (some welcomeLabel) []).1 =
      .ok [⟨"title", .text "Welcome", "Title: \"Welcome\"", true, false⟩] := by
  have hseen : withPosts.visible (some ["root"]) = .ok [welcome] := rfl
  have hselected : VariableList.selected (some welcomeLabel) = .ok ["title"] := by
    have hids := (Expression.isName_encode "title").referencedIds_eq
    rw [Reference.decode?_encode (by decide)] at hids
    simp [VariableList.selected, Usage.ofText, welcomeLabel, hids]
  have hvalue : Entries.lookup welcome.id (VariableList.values [welcome] []) =
      some (.text "Welcome") := rfl
  have hused := used_welcomeLabel Settings.default.effects
  rw [← hprops] at hused
  have hrow : VariableList.row withPosts (VariableList.values [welcome] []) ["title"] welcome =
      (.ok ⟨"title", .text "Welcome", "Title: \"Welcome\"", true, false⟩,
        (withPosts.isDeletable welcome).2) := by
    simp only [VariableList.row, hvalue, (h.isDeletable hused welcome).1]
    rfl
  rw [VariableList.rows, hseen, hselected]
  change
    (VariableList.rowsOf withPosts (VariableList.values [welcome] []) ["title"] [welcome]).1 = _
  rw [VariableList.rowsOf, hrow]
  rfl

/--
The variable of the label is kept by all, its row shows so, and the new variable may be deleted.
-/
theorem withPosts_deletable :
    let c := withPosts.store.collections
    let effects := Settings.default.effects
    (withPosts.Answers welcome (c.Spares effects welcome) ∧ ¬ c.Spares effects welcome) ∧
      withPosts.Answers welcomePosts (c.Spares effects welcomePosts) ∧
        c.Spares effects welcomePosts := by
  intro c effects
  have hinformed : withPosts.Informed effects :=
    informed_performAll (Service.informed_new welcomeProject .default _ _ (List.forall_mem_nil _)) _
  have hprops : c.props.values = [.property welcomeLabel] := by decide
  have hused : Usage.used (some effects) c.props.values = .ok ["title"] :=
    hprops ▸ used_welcomeLabel effects
  obtain ⟨hanswers, hlist⟩ := performAll_deletable welcomeProject .default ⟨"v", 0⟩ ⟨"tx-", 0⟩ []
    [.saveResource (some ["list", "root"]) none "Posts" fetchedPosts] (List.forall_mem_nil _)
    ["title"] hused
  have hrows := hlist (some ["root"]) [welcome] (some welcomeLabel) [] _ rfl
    (rows_withPosts hinformed hprops)
  refine ⟨⟨hanswers welcome (by decide) (by decide), ?_⟩,
    hanswers welcomePosts (by decide) (by decide), ?_⟩
  . cases hrows with
    | cons hrow _ => exact fun h => by simpa using (hrow.2.1 (by decide)).mpr h
  . exact (Collections.spares_iff hused (by decide)).mpr (by decide)

end Operation

end PageBinding
