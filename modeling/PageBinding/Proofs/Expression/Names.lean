import PageBinding.Proofs.Expression.Name
import PageBinding.Proofs.Traversal

/-!
This module contains what is known of the identifiers of a text once it has been checked, and which
variables it refers to.
-/

namespace PageBinding

theorem Text.mem_distinct {ts : List Text} {t : Text} : t ∈ Text.distinct ts ↔ t ∈ ts := by
  have hfold (seen : List Text) :
      t ∈ ts.foldl (fun seen t => if t ∈ seen then seen else seen ++ [t]) seen ↔
        t ∈ seen ∨ t ∈ ts := by
    induction ts generalizing seen with
    | nil => simp
    | cons first rest ih =>
      rw [List.foldl_cons, ih]
      split
      . next hmem =>
        constructor
        . rintro (h | h)
          . exact .inl h
          . exact .inr (List.mem_cons_of_mem _ h)
        . rintro (h | h)
          . exact .inl h
          . rcases List.mem_cons.mp h with rfl | hrest
            . exact .inl hmem
            . exact .inr hrest
      . simp [or_assoc]
  rw [distinct, hfold]
  simp

theorem Text.nodup_distinct (ts : List Text) : (Text.distinct ts).Nodup := by
  have hfold (seen : List Text) (h : seen.Nodup) :
      (ts.foldl (fun seen t => if t ∈ seen then seen else seen ++ [t]) seen).Nodup := by
    induction ts generalizing seen with
    | nil => exact h
    | cons first rest ih =>
      rw [List.foldl_cons]
      split
      . exact ih seen h
      . next hmem =>
        apply ih
        rw [List.nodup_append]
        refine ⟨h, by simp, ?_⟩
        rintro t ht _ hfirst rfl
        rw [List.mem_singleton] at hfirst
        exact hmem (hfirst ▸ ht)
  exact hfold [] List.nodup_nil

namespace Expression

variable {mode : Mode} {t : Text}

theorem identifiers?_eq_some_iff [Limits] {ids : List Identifier} :
    identifiers? mode true t = .ok (some ids) ↔ identifiers? mode false t = .ok (some ids) := by
  unfold identifiers?
  split
  . simp
  . cases mode with
    | expression => exact Iff.rfl
    | action allowed =>
      simp only [Traversal.bind_eq_ok_iff]
      apply exists_congr
      intro effects
      apply and_congr_right
      intro _
      cases effects.isEmpty
      . exact Iff.rfl
      . simp [pure, Except.pure, throw, throwThe, MonadExceptOf.throw, bind, Except.bind]

theorem identifiers?_ne_none [Limits] : identifiers? mode false t ≠ .ok none := by
  intro h
  unfold identifiers? at h
  split at h
  . simp at h
  . cases mode with
    | expression =>
      simp only [Traversal.bind_eq_ok_iff, pure, Except.pure] at h
      obtain ⟨e, -, heq⟩ := h
      cases heq
    | action allowed =>
      simp only [Traversal.bind_eq_ok_iff] at h
      obtain ⟨effects, -, heq⟩ := h
      cases hempty : effects.isEmpty with
      | true => simp [hempty, throw, throwThe, MonadExceptOf.throw, bind, Except.bind] at heq
      | false =>
        simp only [hempty, Bool.false_eq_true, if_false, Traversal.bind_eq_ok_iff, pure,
          Except.pure] at heq
        obtain ⟨_, -, heq⟩ := heq
        cases heq

theorem splice_names (t : Text) (ids : List Identifier) :
    splice 0 t ((ids.zip (ids.map Identifier.name)).filter fun (id, name) => name ≠ id.name) =
      t := by
  have hnone : (ids.zip (ids.map Identifier.name)).filter (fun (id, name) => name ≠ id.name) =
      [] := by
    induction ids with
    | nil => rfl
    | cons id rest ih =>
      rw [List.map_cons, List.zip_cons_cons, List.filter_cons_of_neg (by simp), ih]
  rw [hnone]
  rfl

variable [Limits]

theorem checkNames_eq_ok_iff {known : Text → Bool} {code : Text} :
    checkNames mode known t = .ok code ↔
      code = t ∧ ∃ ids, identifiers? mode false t = .ok (some ids) ∧
        ∀ id ∈ ids, known id.name = true := by
  have hanswer (id : Identifier) (name : Text) :
      (if known id.name then Except.ok id.name else .error (.unknownIdentifier id.name)) =
        Except.ok (ε := Failure) name ↔ name = id.name ∧ known id.name = true := by
    cases known id.name <;> simp [eq_comm]
  unfold checkNames replaceNames
  rcases hids : identifiers? mode false t with failure | _ | ids
  . simp [throw, throwThe, MonadExceptOf.throw]
  . exact absurd hids identifiers?_ne_none
  . simp only [Traversal.bind_eq_ok_iff, pure, Except.pure, Except.ok.injEq, Option.some.injEq,
      exists_eq_left']
    constructor
    . rintro ⟨names, hnames, rfl⟩
      -- Every identifier keeps its name, so there is nothing to splice.
      have heq := Traversal.eq_map_of_mapM hnames fun id name h => ((hanswer id name).mp h).1
      rw [heq]
      refine ⟨splice_names t ids, ?_⟩
      intro id hmem
      obtain ⟨name, -, hname⟩ := Traversal.exists_of_mem_of_mapM hnames hmem
      exact ((hanswer id name).mp hname).2
    . rintro ⟨rfl, hknown⟩
      refine ⟨ids.map Identifier.name, ?_, splice_names code ids⟩
      apply Traversal.mapM_eq_ok
      exact fun id hmem => (hanswer id id.name).mpr ⟨rfl, hknown id hmem⟩

theorem mem_referencedIds {ids : List Text} (h : referencedIds mode t = .ok ids)
    {x : Text} :
    x ∈ ids ↔ ∃ identifiers, identifiers? mode false t = .ok (some identifiers) ∧
      ∃ id ∈ identifiers, Reference.decode? id.name = some x := by
  unfold referencedIds at h
  rw [Traversal.bind_eq_ok_iff] at h
  obtain ⟨found, hfound, hids⟩ := h
  cases found with
  | none =>
    cases hids
    simp only [List.not_mem_nil, false_iff, not_exists, not_and]
    intro identifiers hidentifiers
    rw [← identifiers?_eq_some_iff, hfound] at hidentifiers
    cases hidentifiers
  | some identifiers =>
    cases hids
    rw [Text.mem_distinct, List.mem_filterMap]
    rw [identifiers?_eq_some_iff] at hfound
    simp [hfound]

theorem referencedIds_eq_ok {identifiers : List Identifier}
    (h : identifiers? mode false t = .ok (some identifiers)) :
    ∃ ids, referencedIds mode t = .ok ids := by
  rw [← identifiers?_eq_some_iff] at h
  exact ⟨_, by rw [referencedIds, h]; rfl⟩

theorem IsName.identifiers?_eq (h : IsName t) :
    identifiers? .expression false t = .ok (some [⟨t, 0, t.length, false⟩]) := by
  simp only [identifiers?, h.isBlank_eq_false, Bool.false_eq_true, if_false, h.parse_eq]
  rfl

end Expression

end PageBinding
