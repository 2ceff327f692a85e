import PageBinding.Proofs.Usage.Mentions
import PageBinding.Proofs.Workspace.Placement

/-!
This module contains which expressions can be set: a text is accepted for a prop if it can be read
and all its identifiers are those of variables that the selector sees.
-/

namespace PageBinding

def Scope.Offers (vars : List Variable) (name : Text) : Prop :=
  ∃ v ∈ vars, Reference.encode? v.id = .ok name

theorem Scope.exists_aliases {vars : List Variable} (hnamed : ∀ v ∈ vars, v.id ≠ []) :
    ∃ aliases, Scope.aliases vars = .ok aliases ∧
      ∀ name, aliases.contains name = true ↔ Offers vars name := by
  obtain ⟨aliases, haliases, hcontains⟩ := aliases_eq_ok hnamed
  refine ⟨aliases, haliases, fun name => (hcontains name).trans ?_⟩
  apply exists_congr
  intro v
  apply and_congr_right
  intro hv
  rw [Reference.encode?_eq_ok_iff, and_iff_right (hnamed v hv), eq_comm]

namespace Expression

variable {mode : Mode} {known : Text → Bool} {t : Text} {ids : List Identifier}

theorem exists_first_unknown (h : ¬ ∀ id ∈ ids, known id.name = true) :
    ∃ before id after, ids = before ++ id :: after ∧
      (∀ other ∈ before, known other.name = true) ∧ known id.name = false := by
  cases hfind : ids.find? fun id => !known id.name with
  | none =>
    rw [List.find?_eq_none] at hfind
    exact absurd (fun id hid => by simpa using hfind id hid) h
  | some id =>
    obtain ⟨hid, before, after, heq, hbefore⟩ := List.find?_eq_some_iff_append.mp hfind
    exact ⟨before, id, after, heq, fun other hmem => by simpa using hbefore other hmem,
      by simpa using hid⟩

theorem checkNames_eq_error [Limits] {before after : List Identifier} {id : Identifier}
    (h : identifiers? mode false t = .ok (some (before ++ id :: after)))
    (hbefore : ∀ other ∈ before, known other.name = true) (hid : known id.name = false) :
    checkNames mode known t = .error (.unknownIdentifier id.name) := by
  let check (id : Identifier) : Except Failure Text :=
    if known id.name then .ok id.name else .error (.unknownIdentifier id.name)
  have hnames : (before ++ id :: after).mapM check = .error (.unknownIdentifier id.name) :=
    Traversal.mapM_eq_error (fun other hmem => ⟨_, if_pos (hbefore other hmem)⟩)
      (if_neg (by simp [hid]))
  unfold checkNames replaceNames
  rw [h]
  exact congrArg (fun names : Except Failure (List Text) => names >>= _) hnames

theorem referencedIds_of_offers [Limits] {e : Expr} {vars : List Variable}
    (hparse : parse t = .ok e)
    (hoffers : ∀ id ∈ e.identifiers, Scope.Offers vars id.name) :
    ∃ ids, referencedIds .expression t = .ok ids ∧
      (∀ x, x ∈ ids ↔ ∃ id ∈ e.identifiers, Reference.encode? x = .ok id.name) ∧
      ∀ x ∈ ids, ∃ v ∈ vars, v.id = x := by
  have hidentifiers : identifiers? .expression false t = .ok (some e.identifiers) :=
    identifiers?_expression_iff.mpr ⟨e, hparse, rfl⟩
  obtain ⟨ids, hids⟩ := referencedIds_eq_ok hidentifiers
  have hmem (x : Text) :
      x ∈ ids ↔ ∃ id ∈ e.identifiers, Reference.encode? x = .ok id.name := by
    rw [mem_referencedIds hids]
    simp only [hidentifiers, Except.ok.injEq, Option.some.injEq, exists_eq_left',
      Reference.decode?_eq_some_iff]
  refine ⟨ids, hids, hmem, fun x hx => ?_⟩
  obtain ⟨id, hid, hencode⟩ := (hmem x).mp hx
  obtain ⟨v, hv, hname⟩ := hoffers id hid
  -- No other id is written as the same identifier.
  have hdecode := Reference.decode?_of_encode? hencode
  rw [Reference.decode?_of_encode? hname] at hdecode
  exact ⟨v, hv, Option.some.inj hdecode⟩

end Expression

namespace Edit

variable {s s' : Store} {collectionComponent : Text} {selector : Option Selector}
  {propertyId : Option Text}

theorem commit_returns [Limits] {α : Type} {names : List CollectionName}
    {written : α → List (CollectionName × Text)}
    {change : Collections → IdSupply → Except Failure (α × Collections × IdSupply)}
    (idle : s.inTransaction = false) {result : α × Collections × IdSupply}
    (h : change s.collections s.ids = .ok result) :
    ∃ s', (commit names written change).run s = (.ok result.1, s') := by
  rw [run_commit, Store.edit_eq_of_idle idle, h]
  exact ⟨_, rfl⟩

theorem exists_existingProperty {c : Collections} {id : Text}
    (h : ∀ entity, c.stored? .props id = some entity → ∃ p, entity = .property p) :
    ∃ existing, existingProperty c id = .ok existing := by
  unfold existingProperty
  cases hstored : c.stored? .props id with
  | none => exact ⟨none, rfl⟩
  | some entity =>
    obtain ⟨p, rfl⟩ := h entity hstored
    exact ⟨some p, rfl⟩

theorem setProperty_returns [Limits] (idle : s.inTransaction = false)
    (hstored : ∀ id ∈ propertyId, ∀ entity, s.collections.stored? .props id = some entity →
      ∃ p, entity = .property p)
    (instanceId : Text) (ancestors : Selector) (name : Text) (value : PropertyValue) :
    ∃ p s', (setProperty (some (instanceId :: ancestors)) propertyId name value).run s =
      (.ok p, s') := by
  unfold setProperty
  rw [run_ofExcept_bind]
  cases propertyId with
  | none => exact ⟨_, commit_returns idle rfl⟩
  | some id =>
    obtain ⟨existing, hexisting⟩ := exists_existingProperty (hstored id rfl)
    cases existing with
    | none => exact ⟨_, commit_returns idle (by simp only [hexisting]; rfl)⟩
    | some existing => exact ⟨_, commit_returns idle (by simp only [hexisting]; rfl)⟩

/--
A prop has been stored by one commit. Of the listeners, which are called after it, only those that
commit transactions of their own can change what is stored.
-/
structure Stores (s : Store) (p : Property) (s' : Store) : Prop where
  committed : ∃ mid : Store, s.Follows mid ∧ mid.collections.props.get? p.id = some (.property p) ∧
    mid.Publishes s'
  kept : (∀ listener ∈ s.listeners, listener.Observes) →
    s'.collections.props.get? p.id = some (.property p)

theorem stores_of_sets {name t : Text} {p : Property} {w : Write}
    (h : Sets s selector propertyId name (.expression t) p w)
    (hedited : s.Edited w.names (w.apply s.collections) s') : Stores s p s' := by
  rw [h.write] at hedited
  have hput {b : Ledger}
      (hledger : s.ledger.Edited [.props] (s.collections.putProperty p) b) :
      b.collections.props.get? p.id = some (.property p) :=
    Workspace.get?_props_of_edited (a := s.ledger) h.bound hledger
  refine ⟨?_, fun observe => hput (hedited.ledger observe)⟩
  obtain ⟨mid, hfollows, hledger, hpublishes⟩ := hedited
  exact ⟨mid, hfollows, hput hledger, hpublishes⟩

theorem run_setExpression [Limits] {seen : List Variable} {aliases : Collection Text} {text : Text}
    (hblank : text.isBlank = false) (hseen : visible s collectionComponent selector = .ok seen)
    (haliases : Scope.aliases seen = .ok aliases) (name : Text) (declared : Option PropertyMeta) :
    (setExpression collectionComponent selector propertyId name text declared).run s =
      (ofExcept (Expression.checkNames .expression aliases.contains text) >>= fun code =>
        setProperty selector propertyId name (.expression code) >>= fun p =>
          pure (some p)).run s := by
  unfold setExpression
  rw [hblank, if_neg Bool.false_ne_true]
  rw [run_get_bind, run_ofExcept_bind, hseen]
  dsimp only
  rw [run_ofExcept_bind, haliases]

section Accepted

variable [Limits] {instanceId : Text} {ancestors : Selector} {seen : List Variable} {text : Text}

theorem setExpression_of_offers {e : Expression.Expr} (idle : s.inTransaction = false)
    (hstored : ∀ id ∈ propertyId, ∀ entity, s.collections.stored? .props id = some entity →
      ∃ p, entity = .property p)
    (hseen : visible s collectionComponent (some (instanceId :: ancestors)) = .ok seen)
    (hnamed : ∀ v ∈ seen, v.id ≠ []) (hparse : Expression.parse text = .ok e)
    (hoffers : ∀ id ∈ e.identifiers, Scope.Offers seen id.name) (name : Text)
    (declared : Option PropertyMeta) :
    ∃ p s', (setExpression collectionComponent (some (instanceId :: ancestors)) propertyId name text
        declared).run s = (.ok (some p), s') ∧
      p.value = .expression text ∧ Stores s p s' := by
  obtain ⟨aliases, haliases, hcontains⟩ := Scope.exists_aliases hnamed
  have hcode : Expression.checkNames .expression aliases.contains text = .ok text := by
    refine Expression.checkNames_eq_ok_iff.mpr ⟨rfl, e.identifiers, ?_, ?_⟩
    . exact Expression.identifiers?_expression_iff.mpr ⟨e, hparse, rfl⟩
    . exact fun id hid => (hcontains id.name).mpr (hoffers id hid)
  obtain ⟨p, s', hset⟩ :=
    setProperty_returns idle hstored instanceId ancestors name (.expression text)
  have hensures :=
    ensures_setProperty (s := s) (some (instanceId :: ancestors)) propertyId name (.expression text)
  rw [Ensures, hset] at hensures
  obtain ⟨w, hsets, hedited⟩ := hensures
  refine ⟨p, s', ?_, hsets.bound, stores_of_sets hsets hedited⟩
  rw [run_setExpression (Expression.isBlank_eq_false_of_parse hparse) hseen haliases,
    run_ofExcept_bind, hcode]
  dsimp only
  rw [run_bind, hset]
  rfl

theorem setExpression_of_not_offers
    (hseen : visible s collectionComponent (some (instanceId :: ancestors)) = .ok seen)
    (hnamed : ∀ v ∈ seen, v.id ≠ []) (hblank : text.isBlank = false)
    (hrefused : ¬ ∃ e, Expression.parse text = .ok e ∧
      ∀ id ∈ e.identifiers, Scope.Offers seen id.name)
    (propertyId : Option Text) (name : Text) (declared : Option PropertyMeta) :
    ∃ failure, (setExpression collectionComponent (some (instanceId :: ancestors)) propertyId name
        text declared).run s = (.error failure, s) ∧
      ∀ e, Expression.parse text = .ok e → ∃ before id after,
        e.identifiers = before ++ id :: after ∧
        (∀ other ∈ before, Scope.Offers seen other.name) ∧ ¬ Scope.Offers seen id.name ∧
        failure = .unknownIdentifier id.name := by
  obtain ⟨aliases, haliases, hcontains⟩ := Scope.exists_aliases hnamed
  rw [run_setExpression hblank hseen haliases, run_ofExcept_bind]
  cases hparse : Expression.parse text with
  | error fault =>
    cases hcode : Expression.checkNames .expression aliases.contains text with
    | error failure => exact ⟨failure, rfl, nofun⟩
    | ok code =>
      obtain ⟨-, ids, hids, -⟩ := Expression.checkNames_eq_ok_iff.mp hcode
      obtain ⟨e, hread, -⟩ := Expression.identifiers?_expression_iff.mp hids
      rw [hparse] at hread
      cases hread
  | ok e =>
    have hids : Expression.identifiers? .expression false text = .ok (some e.identifiers) :=
      Expression.identifiers?_expression_iff.mpr ⟨e, hparse, rfl⟩
    have hunknown : ¬ ∀ id ∈ e.identifiers, aliases.contains id.name = true := fun h =>
      hrefused ⟨e, hparse, fun id hid => (hcontains id.name).mp (h id hid)⟩
    obtain ⟨before, id, after, heq, hbefore, hid⟩ := Expression.exists_first_unknown hunknown
    have hcode := Expression.checkNames_eq_error (heq ▸ hids) hbefore hid
    rw [hcode]
    refine ⟨_, rfl, ?_⟩
    rintro _ ⟨⟩
    have hseenBefore : ∀ other ∈ before, Scope.Offers seen other.name := fun other hmem =>
      (hcontains other.name).mp (hbefore other hmem)
    have hunseen : ¬ Scope.Offers seen id.name := by
      rw [← hcontains, hid]
      exact Bool.false_ne_true
    exact ⟨before, id, after, heq, hseenBefore, hunseen, rfl⟩

/--
Outside of transactions an expression is set if and only if it can be read and all its identifiers
are those of variables that the selector sees. What is stored is then the very text, and it refers
to just these variables. Otherwise nothing changes, and a text that can be read is refused for its
first identifier that is not seen.
-/
theorem setExpression_accepts (idle : s.inTransaction = false)
    (hstored : ∀ id ∈ propertyId, ∀ entity, s.collections.stored? .props id = some entity →
      ∃ p, entity = .property p)
    (hseen : visible s collectionComponent (some (instanceId :: ancestors)) = .ok seen)
    (hnamed : ∀ v ∈ seen, v.id ≠ []) (hblank : text.isBlank = false) (name : Text)
    (declared : Option PropertyMeta) {result : Except Failure (Option Property)}
    (hrun : (setExpression collectionComponent (some (instanceId :: ancestors)) propertyId name text
      declared).run s = (result, s')) :
    ((∃ returned, result = .ok returned) ↔
      ∃ e, Expression.parse text = .ok e ∧ ∀ id ∈ e.identifiers, Scope.Offers seen id.name) ∧
    (∀ returned, result = .ok returned → ∃ p e ids, returned = some p ∧
      p.value = .expression text ∧ Stores s p s' ∧ Expression.parse text = .ok e ∧
      Expression.referencedIds .expression text = .ok ids ∧
      (∀ x, x ∈ ids ↔ ∃ id ∈ e.identifiers, Reference.encode? x = .ok id.name) ∧
      ∀ x ∈ ids, ∃ v ∈ seen, v.id = x) ∧
    (∀ failure, result = .error failure → s' = s ∧
      ∀ e, Expression.parse text = .ok e → ∃ before id after,
        e.identifiers = before ++ id :: after ∧
        (∀ other ∈ before, Scope.Offers seen other.name) ∧ ¬ Scope.Offers seen id.name ∧
        failure = .unknownIdentifier id.name) := by
  by_cases haccepted : ∃ e, Expression.parse text = .ok e ∧
      ∀ id ∈ e.identifiers, Scope.Offers seen id.name
  . obtain ⟨e, hparse, hoffers⟩ := haccepted
    obtain ⟨p, after, hreturns, hvalue, hstores⟩ :=
      setExpression_of_offers idle hstored hseen hnamed hparse hoffers name declared
    rw [hreturns] at hrun
    cases hrun
    obtain ⟨ids, hids, hmem, hall⟩ := Expression.referencedIds_of_offers hparse hoffers
    refine ⟨⟨fun _ => ⟨e, hparse, hoffers⟩, fun _ => ⟨some p, rfl⟩⟩, ?_, nofun⟩
    rintro _ ⟨⟩
    exact ⟨p, e, ids, rfl, hvalue, hstores, hparse, hids, hmem, hall⟩
  . obtain ⟨failure, hrefused, hfirst⟩ :=
      setExpression_of_not_offers hseen hnamed hblank haccepted propertyId name declared
    rw [hrefused] at hrun
    cases hrun
    refine ⟨⟨nofun, fun h => absurd h haccepted⟩, nofun, ?_⟩
    rintro _ ⟨⟩
    exact ⟨rfl, hfirst⟩

end Accepted

/--
An object whose only entry is the variable of the card, as key and value at once.
-/
def titleText : Text :=
  "\x7b$ws$dataSource$title\x7d"

/--
The prop of the page is bound to the variable of the card, which is selected.
-/
theorem setExpression_accepts_titleText : ∃ p s',
    (setExpression "List" (some ["card", "page"]) (some "p1") "label" titleText none).run
        Workspace.cardService.store = (.ok (some p), s') ∧
      p.value = .expression titleText ∧
      s'.collections.props.get? p.id = some (.property p) ∧
      ∃ ids, Expression.referencedIds .expression titleText = .ok ids ∧
        ∀ x ∈ ids, x = "title" := by
  have hread : (Expression.parse titleText).toOption.map Expression.Expr.identifiers =
      some [⟨"$ws$dataSource$title", 1, 21, true⟩] := by
    decide +kernel
  have hget : Workspace.cardService.store.collections.stored? .props "p1" =
      some (.property ⟨"p1", "page", "label", .action []⟩) := by
    cbv
  have hstored : ∀ id ∈ some ("p1" : Text), ∀ entity,
      Workspace.cardService.store.collections.stored? .props id = some entity →
        ∃ p, entity = .property p := by
    intro id hid entity hentity
    cases hid
    rw [hget] at hentity
    exact ⟨_, (Option.some.inj hentity).symm⟩
  have hseen : visible Workspace.cardService.store "List" (some ["card", "page"]) =
      .ok [Workspace.cardTitle] := by
    cbv
  have hlisteners : ∀ listener ∈ Workspace.cardService.store.listeners, listener.Observes :=
    fun _ hmem => absurd hmem List.not_mem_nil
  obtain ⟨haccepted, hreturned, -⟩ := setExpression_accepts rfl hstored hseen (by decide)
    (show titleText.isBlank = false by decide) "label" none (Prod.eta _).symm
  obtain ⟨e, hparse, hidentifiers⟩ := Traversal.exists_of_map_toOption hread
  have hoffers : ∀ id ∈ e.identifiers, Scope.Offers [Workspace.cardTitle] id.name := by
    rw [hidentifiers, List.forall_mem_singleton]
    exact ⟨Workspace.cardTitle, List.mem_cons_self, by cbv⟩
  obtain ⟨returned, hreturns⟩ := haccepted.mpr ⟨e, hparse, hoffers⟩
  obtain ⟨p, e', ids, rfl, hvalue, hstores, -, hids, -, hall⟩ := hreturned returned hreturns
  refine ⟨p, _, Prod.ext hreturns rfl, hvalue, hstores.kept hlisteners, ids, hids, fun x hx => ?_⟩
  obtain ⟨v, hv, rfl⟩ := hall x hx
  rw [List.mem_singleton.mp hv]
  rfl

end Edit

end PageBinding
