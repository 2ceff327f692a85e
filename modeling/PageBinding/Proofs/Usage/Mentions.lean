import PageBinding.Proofs.Expression.Denotation
import PageBinding.Proofs.Usage

/-!
This module contains which names are identifiers of a prop, as its texts are parsed. A prop refers
to a variable if the identifier of that variable is one of them.
-/

namespace PageBinding

namespace Expression

variable {t : Text}

theorem eq_nil_of_parseAction [Limits] {done : List Effect} (h : parseAction t = .ok done)
    (hblank : t.isBlank = true) : done = [] := by
  rw [parseAction, Traversal.bind_eq_ok_iff] at h
  obtain ⟨clauses, hread, hresolve⟩ := h
  rw [Clause.read, Traversal.bind_eq_ok_iff] at hread
  obtain ⟨⟨config, last⟩, hrun, hstate⟩ := hread
  obtain ⟨ts, hlayout, hsteps⟩ := Config.layout_of_run (Nat.le_refl _) hrun
  -- There is no token in a blank text, so nothing has been read.
  have hnone : ts = [] := by
    cases ts with
    | nil => rfl
    | cons token ts =>
      rw [hlayout.isBlank_eq_false (List.cons_ne_nil token ts)] at hblank
      cases hblank
  subst hnone
  cases hsteps
  cases hstate
  cases hresolve
  rfl

theorem checkEffects_eq_ok_iff {allowed : List Text} {done : List Effect} :
    checkEffects allowed done = .ok () ↔
      ∀ called args, .call called args ∈ done → called ∈ allowed := by
  induction done with
  | nil => simp [checkEffects]
  | cons effect rest ih =>
    cases effect with
    | assignment target operator value =>
      rw [checkEffects, ih]
      simp
    | call name args =>
      rw [checkEffects]
      split
      . next hname =>
        rw [ih]
        constructor
        . intro h called args hmem
          rcases List.mem_cons.mp hmem with heq | hmem
          . cases heq
            exact hname
          . exact h called args hmem
        . exact fun h called args hmem => h called args (List.mem_cons_of_mem _ hmem)
      . next hname =>
        constructor
        . exact nofun
        . exact fun h => absurd (h name args List.mem_cons_self) hname

theorem identifiers?_expression_iff [Limits] {ids : List Identifier} :
    identifiers? .expression false t = .ok (some ids) ↔
      ∃ e, parse t = .ok e ∧ e.identifiers = ids := by
  unfold identifiers?
  split
  . next hblank =>
    constructor
    . exact nofun
    . rintro ⟨e, hparse, -⟩
      rw [isBlank_eq_false_of_parse hparse] at hblank
      cases hblank
  . simp only [Traversal.bind_eq_ok_iff, pure, Except.pure, Except.ok.injEq, Option.some.injEq]

theorem identifiers?_action_iff [Limits] {allowed : List Text} {ids : List Identifier} :
    identifiers? (.action allowed) false t = .ok (some ids) ↔
      ∃ done, parseAction t = .ok done ∧ done ≠ [] ∧
        (∀ called args, .call called args ∈ done → called ∈ allowed) ∧
        identifiersOfEffects done = ids := by
  unfold identifiers?
  split
  . next hblank =>
    constructor
    . exact nofun
    . rintro ⟨done, hparse, hne, -⟩
      exact absurd (eq_nil_of_parseAction hparse hblank) hne
  . simp only [Traversal.bind_eq_ok_iff]
    apply exists_congr
    intro done
    apply and_congr_right
    intro _
    cases done with
    | nil =>
      constructor
      . exact nofun
      . exact fun h => absurd rfl h.1
    | cons effect rest =>
      simp only [List.isEmpty_cons, Bool.false_eq_true, if_false, ne_eq, List.cons_ne_nil,
        not_false_eq_true, true_and, pure, Except.pure, Except.ok.injEq, Option.some.injEq,
        Traversal.bind_eq_ok_iff]
      constructor
      . rintro ⟨_, hallowed, heq⟩
        exact ⟨checkEffects_eq_ok_iff.mp hallowed, heq⟩
      . rintro ⟨hallowed, heq⟩
        exact ⟨(), checkEffects_eq_ok_iff.mpr hallowed, heq⟩

end Expression

variable [Limits]

namespace Usage

open Expression

/--
A name is an identifier of a prop: it stands in its expression, or in a step of its action that
calls nothing but effects which are allowed.
-/
inductive Mentions (effects : List Text) (p : Property) (name : Text) : Prop where
  | expression {t : Text} {e : Expr} {id : Identifier} :
      p.value = .expression t → parse t = .ok e → id ∈ e.identifiers → id.name = name →
        Mentions effects p name
  | action {steps : List ActionStep} {step : ActionStep} {done : List Effect} {id : Identifier} :
      p.value = .action steps → step ∈ steps → parseAction step.code = .ok done →
      (∀ called args, .call called args ∈ done → called ∈ effects) →
      id ∈ identifiersOfEffects done → id.name = name → Mentions effects p name

variable {effects : List Text} {p : Property} {name : Text}

theorem mentions_iff : Mentions effects p name ↔ ∃ mode t, (mode, t) ∈ texts
    (some effects) p ∧
    ∃ ids, identifiers? mode false t = .ok (some ids) ∧ ∃ id ∈ ids, id.name = name := by
  constructor
  . intro h
    cases h with
    | @expression t e id hvalue hparse hid hname =>
      refine ⟨.expression, t, ?_, _, identifiers?_expression_iff.mpr ⟨e, hparse, rfl⟩, id, hid,
        hname⟩
      simp [texts, hvalue]
    | @action steps step done id hvalue hstep hparse hallowed hid hname =>
      have hne : done ≠ [] := by
        rintro rfl
        cases hid
      refine ⟨.action effects, step.code, ?_, _,
        identifiers?_action_iff.mpr ⟨done, hparse, hne, hallowed, rfl⟩, id, hid, hname⟩
      simp only [texts, hvalue, List.mem_map]
      exact ⟨step, hstep, rfl⟩
  . rintro ⟨mode, t, hmem, ids, hids, id, hid, hname⟩
    unfold texts at hmem
    split at hmem
    . cases hmem
    . next text hvalue =>
      cases List.mem_singleton.mp hmem
      obtain ⟨e, hparse, rfl⟩ := identifiers?_expression_iff.mp hids
      exact .expression hvalue hparse hid hname
    . next steps hvalue =>
      obtain ⟨step, hstep, heq⟩ := List.mem_map.mp hmem
      cases heq
      obtain ⟨done, hparse, -, hallowed, rfl⟩ := identifiers?_action_iff.mp hids
      exact .action hvalue hstep hparse hallowed hid hname

theorem refers_iff_mentions {id : Text} (hne : id ≠ []) :
    Refers effects p id ↔ Mentions effects p (Reference.encode id) := by
  rw [mentions_iff]
  constructor
  . rintro ⟨mode, t, hmem, ids, hids, hid⟩
    obtain ⟨identifiers, hidentifiers, identifier, hidentifier, hdecode⟩ :=
      (mem_referencedIds hids).mp hid
    exact ⟨mode, t, hmem, identifiers, hidentifiers, identifier, hidentifier,
      (Reference.eq_encode_of_decode? hdecode).2⟩
  . rintro ⟨mode, t, hmem, identifiers, hidentifiers, identifier, hidentifier, hname⟩
    obtain ⟨ids, hids⟩ := referencedIds_eq_ok hidentifiers
    refine ⟨mode, t, hmem, ids, hids, (mem_referencedIds hids).mpr
      ⟨identifiers, hidentifiers, identifier, hidentifier, ?_⟩⟩
    rw [hname, Reference.decode?_encode hne]

end Usage

end PageBinding
