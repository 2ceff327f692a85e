import PageBinding.Proofs.Edit.Accepted
import PageBinding.Proofs.Expression.Restored
import PageBinding.Proofs.Service.Deletability
import PageBinding.Proofs.Service.Loadable
import PageBinding.Proofs.Session

/-!
This module contains what comes of a variable that is opened in a session and saved just as it is
shown. Its data is restored from its text, so nothing changes, unless the variable has been tagged
with another type than that of its data: saving tags it anew.
-/

namespace PageBinding

namespace TypedValue

theorem typeName_ofValue_iff {literal : TypedValue} :
    (ofValue literal.toValue).typeName = literal.typeName ↔ ofValue literal.toValue = literal := by
  refine ⟨?_, fun h => by rw [h]⟩
  intro h
  cases literal with
  | string t | number n | boolean b => rfl
  | json v =>
    cases v with
    | null | list items | object entries => rfl
    | text t => exact absurd (show ("string" : Text) = "json" from h) (by decide)
    | number n => exact absurd (show ("number" : Text) = "json" from h) (by decide)
    | bool b => exact absurd (show ("boolean" : Text) = "json" from h) (by decide)

end TypedValue

namespace Value.Restores

variable {w : Value} {literal : TypedValue}

theorem typed_agrees_iff (h : w.Restores literal.toValue) :
    (TypedValue.ofValue w).agrees literal = true ↔
      TypedValue.ofValue literal.toValue = literal := by
  rw [TypedValue.agrees, TypedValue.toValue_ofValue, h.agrees, h.kind, Bool.and_true,
    decide_eq_true_eq]
  exact TypedValue.typeName_ofValue_iff

theorem variable_agrees_iff (h : w.Restores literal.toValue) {v : Variable}
    (hcontent : v.content = .value literal) :
    ({ v with content := .value (.ofValue w) } : Variable).agrees v = true ↔
      TypedValue.ofValue literal.toValue = literal := by
  rw [← h.typed_agrees_iff]
  simp [Variable.agrees, hcontent, Content.agrees]

theorem not_countsAs (h : w.Restores literal.toValue) {v : Variable}
    (hcontent : v.content = .value literal) (htag : TypedValue.ofValue literal.toValue ≠ literal) :
    ¬ (Entity.variable_ { v with content := .value (.ofValue w) }).CountsAs (.variable_ v) := by
  rintro (hagrees | heq)
  . exact htag ((h.variable_agrees_iff hcontent).mp hagrees)
  . have hsame : Content.value (.ofValue w) = .value literal := by
      rw [← hcontent]
      exact congrArg Variable.content (Entity.variable_.inj heq)
    apply htag
    rw [← TypedValue.typeName_ofValue_iff, ← h.kind, Content.value.inj hsame]

end Value.Restores

theorem Collection.FiledIn.ne_raw {name : CollectionName} {c : Collection Entity}
    (h : c.FiledIn name) {key : Text} {entity : Entity} (hget : c.get? key = some entity)
    (data : Value) : entity ≠ .raw data := by
  cases name with
  | vars | resources | props =>
    obtain ⟨a, rfl, -⟩ := h key entity hget
    simp

namespace View

variable {v : View}

theorem not_differs_of_eq (hfiled : v.base.FiledIn v.name) {key : Text}
    (hkey : key ∉ v.written) (heq : v.staged.get? key = v.base.get? key) : ¬ v.Differs key := by
  unfold Differs
  rw [heq]
  cases hbase : v.base.get? key with
  | none => exact id
  | some entity => simp [isUnchanged, Entity.remains, hkey, hfiled.ne_raw hbase]

theorem not_differs_of_agrees {key : Text} {before after : Entity}
    (hbefore : v.base.get? key = some before) (hafter : v.staged.get? key = some after)
    (hagrees : after.agrees before = true) : ¬ v.Differs key := by
  simp [Differs, hbefore, hafter, isUnchanged, hagrees]

end View

namespace Store

variable {s : Store} {before after : Variable}

def putViews (s : Store) (v : Variable) : List View :=
  s.editedViews [.vars, .resources] (s.collections.putVariable v) [(.vars, v.id)]

theorem changes_putViews (hfiled : s.collections.Filed)
    (hget : s.collections.vars.get? after.id = some (.variable_ before))
    (hagrees : after.agrees before = true) : ∀ view ∈ s.putViews after, view.changes = [] := by
  have hvars : View.changes ⟨.vars, s.collections.vars,
      s.collections.vars.insert after.id (.variable_ after), [after.id]⟩ = [] := by
    rw [View.changes_eq_nil_iff]
    intro key
    by_cases hkey : key = after.id
    . rw [hkey]
      exact View.not_differs_of_agrees hget (Collection.get?_insert_self _ _ _) hagrees
    . refine View.not_differs_of_eq (hfiled .vars) ?_ (Collection.get?_insert_of_ne _ _ hkey)
      rwa [List.mem_singleton]
  have hresources : View.changes ⟨.resources, s.collections.resources, s.collections.resources,
      []⟩ = [] := by
    rw [View.changes_eq_nil_iff]
    exact fun key => View.not_differs_of_eq (hfiled .resources) List.not_mem_nil rfl
  exact List.forall_mem_cons.mpr ⟨hvars, List.forall_mem_singleton.mpr hresources⟩

theorem abort_of_idle (idle : s.inTransaction = false) : s.abort = s := by
  rw [abort, ← idle]

end Store

theorem Ledger.Edited.put {a b : Ledger} {before after : Variable}
    (h : a.Edited [.vars, .resources] (a.collections.putVariable after) b)
    (hget : a.collections.vars.get? after.id = some (.variable_ before))
    (hcounts : ¬ (Entity.variable_ after).CountsAs (.variable_ before)) :
    b.collections = a.collections.putVariable after ∧ ∃ t : Transaction, t.Leads a b := by
  have hdeparts : ¬ ∀ key, Stays (a.collections.under? .vars key)
      ((a.collections.putVariable after).under? .vars key) := by
    intro hstays
    apply hcounts
    have hafter : (a.collections.putVariable after).vars.get? after.id = some (.variable_ after) :=
      Collection.get?_insert_self _ _ _
    have hkey : Stays (a.collections.vars.get? after.id)
      ((a.collections.putVariable after).vars.get? after.id) := hstays after.id
    rwa [hget, hafter] at hkey
  have hvars : b.collections.vars = (a.collections.putVariable after).vars :=
    (h.stays .vars List.mem_cons_self).resolve_right hdeparts
  have hresources : b.collections.resources = a.collections.resources := by
    rcases h.each .resources with ⟨hsame, -⟩ | ⟨-, htaken, -⟩
    . exact hsame
    . exact htaken
  have hprops : b.collections.props = a.collections.props := by
    rcases h.each .props with ⟨hsame, -⟩ | ⟨hmem, -⟩
    . exact hsame
    . simp at hmem
  have hcollections : b.collections = a.collections.putVariable after :=
    calc b.collections
      _ = ⟨b.collections.vars, b.collections.resources, b.collections.props⟩ := rfl
      _ = a.collections.putVariable after := by rw [hvars, hresources, hprops]; rfl
  refine ⟨hcollections, h.once.resolve_left ?_⟩
  rintro rfl
  exact hdeparts fun key => hcollections ▸ Stays.refl _

namespace Edit

variable {s : Store} {v : Variable} {literal : TypedValue}

theorem scopeFor_of_get? {c : Collections} (hget : c.vars.get? v.id = some (.variable_ v))
    (instanceId : Text) : scopeFor c v.id instanceId = .ok v.scope := by
  have hstored : c.stored? .vars v.id = some (.variable_ v) :=
    Collections.stored?_eq_some hget (by simp)
  rw [scopeFor, hstored]

theorem dropResource_of_value {c : Collections} (hget : c.vars.get? v.id = some (.variable_ v))
    (hcontent : v.content = .value literal) (kept : Option Text) :
    dropResource c v.id kept = c := by
  have hfind : c.findVariable? v.id = some v := by
    rw [Collections.findVariable?, hget]
    rfl
  rw [dropResource, hfind, Option.map_some, hcontent]

theorem filter_isParameter_of_value (hcontent : v.content = .value literal) :
    (some v).filter Variable.isParameter = none := by
  simp [Option.filter, Variable.isParameter, Content.isParameter, hcontent]

theorem run_targetId_bind {α : Type} (hcontains : s.collections.vars.contains v.id = true)
    (instanceId : Text) (next : Text → Edit α) :
    (targetId (some v) instanceId >>= next).run s = (next v.id).run s := by
  rw [targetId, bind_assoc, pure_bind, bind_assoc, run_get_bind, bind_assoc, run_ofExcept_bind,
    checkScope, if_pos hcontains, pure_bind]

theorem requireName_of_ne {name : Text} (h : name ≠ []) : requireName name = .ok () := by
  rw [requireName, if_neg (mt List.isEmpty_iff.mp h)]

variable [Limits]

theorem run_save_of_error (hcontent : v.content = .value literal) {name : Text}
    (hname : name ≠ [])
    {text : Text} {failure : Failure} (hevaluate : Expression.evaluate text = .error failure)
    (selector : Option Selector) :
    (save selector (some v) name text).run s = (.error failure, s) := by
  simp only [save, run_ofExcept_bind, requireName_of_ne hname,
    filter_isParameter_of_value hcontent, hevaluate]

theorem run_save_of_get? (idle : s.inTransaction = false)
    (hget : s.collections.vars.get? v.id = some (.variable_ v))
    (hcontent : v.content = .value literal) {name : Text} (hname : name ≠ []) {text : Text}
    {w : Value} (hevaluate : Expression.evaluate text = .ok w) (instanceId : Text)
    (ancestors : Selector) :
    let saved : Variable := ⟨v.id, name, v.scope, .value (.ofValue w)⟩
    (save (some (instanceId :: ancestors)) (some v) name text).run s =
      (.ok saved, s.commit (s.putViews saved)) := by
  intro saved
  simp only [save, run_ofExcept_bind, requireName_of_ne hname,
    filter_isParameter_of_value hcontent, hevaluate, requireInstance,
    run_targetId_bind (Collection.contains_iff.mpr ⟨_, hget⟩)]
  rw [run_commit, Store.edit_eq_of_idle idle, scopeFor_of_get? hget,
    dropResource_of_value hget hcontent]
  rfl

theorem run_save_restored (idle : s.inTransaction = false) (hfiled : s.collections.Filed)
    (observe : ∀ listener ∈ s.listeners, listener.Observes)
    (hget : s.collections.vars.get? v.id = some (.variable_ v))
    (hcontent : v.content = .value literal) (hname : v.name ≠ []) {text : Text} {w : Value}
    (hevaluate : Expression.evaluate text = .ok w) (hrestores : w.Restores literal.toValue)
    (instanceId : Text) (ancestors : Selector) :
    let saved : Variable := { v with content := .value (.ofValue w) }
    ∃ s', (save (some (instanceId :: ancestors)) (some v) v.name text).run s = (.ok saved, s') ∧
      (TypedValue.ofValue literal.toValue = literal → s' = s) ∧
      (TypedValue.ofValue literal.toValue ≠ literal →
        s'.collections = s.collections.putVariable saved ∧
          ∃ t : Transaction, t.Leads s.ledger s'.ledger) := by
  intro saved
  have hrun := run_save_of_get? idle hget hcontent hname hevaluate instanceId ancestors
  refine ⟨_, hrun, ?_, ?_⟩
  . intro htag
    have hagrees : saved.agrees v = true := (hrestores.variable_agrees_iff hcontent).mpr htag
    have hnone : ∀ view ∈ s.putViews saved, view.changes = [] :=
      Store.changes_putViews hfiled hget hagrees
    rw [Store.commit_of_changes_eq_nil hnone, Store.abort_of_idle idle]
  . intro htag
    have hensures := ensures_save (s := s) (some (instanceId :: ancestors)) (some v) v.name text
    rw [Ensures, hrun] at hensures
    obtain ⟨write, hsaves, hedited⟩ := hensures
    rw [SavesAs, filter_isParameter_of_value hcontent] at hsaves
    obtain ⟨-, -, rfl⟩ := hsaves
    have hdrop : dropResource s.ledger.collections saved.id none = s.ledger.collections :=
      dropResource_of_value hget hcontent none
    have hput : s.ledger.Edited [.vars, .resources] (s.ledger.collections.putVariable saved)
        (s.commit (s.putViews saved)).ledger := by
      rw [← hdrop]
      exact hedited.ledger observe
    obtain ⟨hcollections, hleads⟩ := hput.put hget (hrestores.not_countsAs hcontent htag)
    exact ⟨hcollections, hleads⟩

end Edit

namespace Session

structure Resaves (service service' : Service) (v : Variable) (literal : TypedValue)
    (saved : Variable) : Prop where
  restored : ∃ w : Value, w.Restores literal.toValue ∧
    saved = { v with content := .value (.ofValue w) }
  untouched : TypedValue.ofValue literal.toValue = literal → service' = service
  retagged : TypedValue.ofValue literal.toValue ≠ literal →
    service'.store.collections = service.store.collections.putVariable saved ∧
      ∃ t : Transaction, t.Leads service.store.ledger service'.store.ledger

variable {s : Session}

theorem edit_of_closed (hclosed : s.stage = .closed) (v : Variable) :
    (s.openList >>= fun list => list.edit v) =
      .ok { s.resetOne with stage := .one, current? := some v, tab? := some (tabOf v) } := by
  rw [openList, require_of_eq hclosed]
  rfl

/--
After any operations on the store of an accepted project a value variable is opened in a session and
saved with the name and the text that are shown. Its data is one that evaluation lets through. Then
the variable is saved with restored data, and nothing changes unless that tags it anew. Text that is
too deep is refused, and nothing changes either.
-/
theorem saveValue_initialText [Limits] {p : Project} (haccepted : p.check = .ok p)
    (settings : Settings)
    (ids transactionIds : IdSupply) {listeners : List Listener}
    (observe : ∀ listener ∈ listeners, listener.Observes) (ops : List Operation)
    (hclosed : s.stage = .closed) {instanceId : Text} {ancestors : Selector}
    (hselector : s.selector = some (instanceId :: ancestors)) {v : Variable} {literal : TypedValue}
    (hcontent : v.content = .value literal) (hname : v.name ≠ []) (hkeyed : literal.toValue.IsKeyed)
    (hcheck : Expression.checkData literal.toValue = .ok ()) :
    let service := Operation.performAll ops
      (.new { p.toStore ids transactionIds with listeners } settings)
    v ∈ service.store.collections.variableList →
      ∃ editing text, (s.openList >>= fun list => list.edit v) = .ok editing ∧
        editing.initialText = .ok text ∧
        (literal.toValue.spelled.depth ≤ Limits.maxDepth → ∃ saved after service',
          editing.saveValue service editing.initialName text = (.ok saved, after, service') ∧
            Resaves service service' v literal saved) ∧
        (Limits.maxDepth < literal.toValue.spelled.depth → ∃ after,
          editing.saveValue service editing.initialName text =
            (.error Expression.tooDeep, after, service)) := by
  intro service hv
  have hconflict : p.conflict? = none := Project.check_eq_ok_iff.mp haccepted
  have hplaced : service.Placed p :=
    Operation.placed_performAll ⟨Project.placed_toCollections hconflict, rfl, observe⟩ ops
  have hfiled := hplaced.collections.filed
  have hget := hfiled.get?_vars_of_mem (Collections.mem_variableList_iff.mp hv)
  have hidle : service.store.inTransaction = false := Operation.idle_performAll rfl ops
  obtain ⟨text, hformat, hrestored, hdeep⟩ :=
    Expression.evaluate_format_restores hkeyed hcheck
  have hliteral : v.literal? = some literal.toValue := by rw [Variable.literal?, hcontent]
  refine ⟨_, text, edit_of_closed hclosed v, ?_, ?_, ?_⟩
  . simp only [initialText, Option.bind_some, hliteral]
    exact hformat
  . intro hdepth
    obtain ⟨w, hevaluate, hrestores⟩ := hrestored hdepth
    obtain ⟨store, hrun, huntouched, hretagged⟩ := Edit.run_save_restored hidle hfiled
      hplaced.observe hget hcontent hname hevaluate hrestores instanceId ancestors
    have hsave : service.save s.selector (some v) v.name text =
        (.ok { v with content := .value (.ofValue w) }, { service with store }) := by
      rw [Service.save, Service.run, hselector, hrun]
    refine ⟨_, _, _, saveBy_of_ok rfl hsave, ⟨w, hrestores, rfl⟩, ?_, hretagged⟩
    exact fun htag => by rw [huntouched htag]
  . intro hdepth
    have hsave : service.save s.selector (some v) v.name text =
        (.error Expression.tooDeep, service) := by
      rw [Service.save, Service.run, Edit.run_save_of_error hcontent hname (hdeep hdepth)]
    exact ⟨_, saveBy_of_error rfl hsave⟩

def oneAndHalf : Binary64 :=
  .finite false ⟨0x3FF8000000000000, by decide⟩

def weights : Variable :=
  ⟨"w", "Weights", "body", .value (.json (.list [
    .number (.float oneAndHalf), .object [("unit", .text "kg")]]))⟩

def tagged : Variable :=
  ⟨"t", "Title", "body", .value (.json (.text "abc"))⟩

def taggedProject : Project where
  instances := [⟨"body", "Body", none, none⟩]
  vars := [weights, tagged]
  resources := []
  props := []

def taggedService [Limits] (ops : List Operation) : Service :=
  Operation.performAll ops
    (.new { taggedProject.toStore ⟨"v", 0⟩ ⟨"tx-", 0⟩ with listeners := [] } .default)

theorem check_taggedProject : taggedProject.check = .ok taggedProject :=
  Project.check_eq_ok_iff.mpr (by decide)

/--
The weights, among which is a number that is not whole, are restored.
-/
theorem saveValue_initialText_weights : ∃ editing text saved after,
    let service := taggedService [.rename tagged "Heading"]
    ((new (some ["body"])).openList >>= fun list => list.edit weights) = .ok editing ∧
      editing.initialText = .ok text ∧
      editing.saveValue service editing.initialName text = (.ok saved, after, service) := by
  obtain ⟨editing, text, hediting, htext, hsaves, -⟩ :=
    saveValue_initialText check_taggedProject .default ⟨"v", 0⟩ ⟨"tx-", 0⟩
      (List.forall_mem_nil _) [.rename tagged "Heading"] (s := new (some ["body"])) rfl rfl
      (v := weights) rfl (by decide) ⟨trivial, ⟨by decide, trivial, trivial⟩, trivial⟩
      rfl (by decide +kernel)
  obtain ⟨saved, after, service', hsave, hresaves⟩ := hsaves (by decide +kernel)
  obtain rfl := hresaves.untouched rfl
  exact ⟨editing, text, saved, after, hediting, htext, hsave⟩

/--
The text that is tagged as structured data is saved as a text, which is a change.
-/
theorem not_forall_saveValue_untouched :
    ¬ ∀ (p : Project) (settings : Settings) (ids transactionIds : IdSupply) (ops : List Operation)
        (s editing : Session) (instanceId : Text) (ancestors : Selector) (v : Variable)
        (text : Text),
      let service := Operation.performAll ops (.new (p.toStore ids transactionIds) settings)
      p.check = .ok p → s.stage = .closed → s.selector = some (instanceId :: ancestors) →
      v ∈ service.store.collections.variableList → v.literal?.isSome = true → v.name ≠ [] →
      (s.openList >>= fun list => list.edit v) = .ok editing → editing.initialText = .ok text →
        ∃ saved after,
          editing.saveValue service editing.initialName text = (.ok saved, after, service) := by
  intro h
  have htext : Expression.format (.text "abc") = .ok "\"abc\"" := by cbv
  obtain ⟨saved, after, hsave⟩ := h taggedProject .default ⟨"v", 0⟩ ⟨"tx-", 0⟩ []
    (new (some ["body"])) _ "body" [] tagged _ check_taggedProject rfl rfl (by decide +kernel)
    rfl (by decide) rfl htext
  have hversion := congrArg (fun outcome => outcome.2.2.store.versions.get .vars) hsave
  change _ = (taggedService []).store.versions.get .vars at hversion
  exact absurd hversion (by decide +kernel)

end Session

end PageBinding
