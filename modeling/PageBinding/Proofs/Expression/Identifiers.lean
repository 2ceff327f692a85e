import PageBinding.Proofs.Expression.Action
import PageBinding.Proofs.Expression.Enclosed

/-!
This module contains which names the identifiers of a text have. Inside of an expression each of
them is read on its own as the same identifier. At the start of an effect a name is looked for and
nothing else, so there a word is a name even if it is a literal or an operator everywhere else.
-/

namespace PageBinding

namespace Expression

structure IsBare [Limits] (name : Text) : Prop where
  reserved : isReserved name = false
  parse : parse name = .ok (.identifier ⟨name, 0, name.length, false⟩)

/--
An effect assigns to a word that is a literal or an operator everywhere else.
-/
structure Effect.AssignsKeyword [Limits] (effect : Effect) (id : Identifier) : Prop where
  target : ∃ operator value, effect = .assignment id operator value
  keyword : ∃ keyword : Keyword, keyword.text = id.name
  reserved : isReserved id.name = false
  parse : ∀ id', parse id.name ≠ .ok (.identifier id')

theorem IsName.isBare [Limits] {name : Text} (h : IsName name) : IsBare name :=
  ⟨h.reserved, h.parse_eq⟩

theorem exists_name_of_resolve {p : Phrase} {room : Nat} {id : Identifier}
    (h : p.resolve room = .ok (.identifier id)) : ∃ token, p = .name token := by
  cases room with
  | zero => simp [Phrase.resolve] at h
  | succ room =>
    cases p <;>
      simp [Phrase.resolve, Traversal.bind_eq_ok_iff, pure, Except.pure] at h ⊢

theorem parse_keyword_ne [Limits] (keyword : Keyword) (id : Identifier) :
    parse keyword.text ≠ .ok (.identifier id) := by
  have hword : (Phrase.read keyword.text).toOption.any (· matches .name _) = false := by
    cases keyword <;> decide +kernel
  intro h
  obtain ⟨p, hread, hresolve⟩ := Traversal.bind_eq_ok_iff.mp h
  obtain ⟨token, rfl⟩ := exists_name_of_resolve hresolve
  rw [hread] at hword
  cases hword

theorem isName_of_spells {level room : Nat} {p : Phrase} {is : List Item} {e : Expr}
    (h : Spells (.phrase level p) is) (hresolve : p.resolve room = .ok e)
    (hfits : ∀ item ∈ is, ∃ rest, item.token.lexeme.Fits rest) :
    ∀ id ∈ e.identifiers, IsName id.name := by
  rw [h.hasIdentifiers _ _ hresolve]
  exact h.isName hresolve (List.forall_mem_map.mpr hfits)

theorem isName_of_spellsArguments {room : Nat} {ps : List Phrase} {is : List Item} {es : List Expr}
    (h : SpellsArguments ps is) (hresolve : resolveList room ps = .ok es)
    (hfits : ∀ item ∈ is, ∃ rest, item.token.lexeme.Fits rest) :
    ∀ id ∈ identifiersOfList es, IsName id.name := by
  induction h generalizing es with
  | close _ =>
    cases hresolve
    exact List.forall_mem_nil _
  | last hspells _ =>
    obtain ⟨a, as, ha, has, rfl⟩ := exists_of_resolveList hresolve
    cases has
    rw [identifiersOfList, identifiersOfList, List.append_nil]
    exact isName_of_spells hspells ha (List.forall_mem_append.mp hfits).1
  | more hspells _ _ ih =>
    obtain ⟨a, as, ha, has, rfl⟩ := exists_of_resolveList hresolve
    obtain ⟨hfirst, hrest⟩ := List.forall_mem_append.mp hfits
    exact List.forall_mem_append.mpr
      ⟨isName_of_spells hspells ha hfirst, ih has (List.forall_mem_cons.mp hrest).2⟩

theorem SpellsAction.exists_spellsClause {clauses : List Clause} {is : List Item}
    (h : SpellsAction clauses is) :
    ∀ clause ∈ clauses, ∃ js, SpellsClause clause js ∧ js ⊆ is := by
  induction h with
  | nil => exact List.forall_mem_nil _
  | semicolon _ _ ih =>
    intro clause hmem
    obtain ⟨js, hclause, hsubset⟩ := ih clause hmem
    exact ⟨js, hclause, List.subset_cons_of_subset _ hsubset⟩
  | clause hclause _ ih =>
    rw [List.forall_mem_cons]
    refine ⟨⟨_, hclause, List.subset_append_left _ _⟩, fun clause hmem => ?_⟩
    obtain ⟨js, hclause, hsubset⟩ := ih clause hmem
    exact ⟨js, hclause, List.subset_append_of_subset_right _ hsubset⟩

theorem isName_of_spellsClause [Limits] {clause : Clause} {is : List Item} {effect : Effect}
    (h : SpellsClause clause is) (hresolve : clause.resolve = .ok effect)
    (hfits : ∀ item ∈ is, ∃ rest, item.token.lexeme.Fits rest) :
    ∀ id ∈ effect.identifiers, IsName id.name ∨
      (∃ operator value, effect = .assignment id operator value) ∧ IsWord id.name ∧
        isReserved id.name = false := by
  cases h with
  | @assignment target operator p is htarget _ hspells =>
    simp only [Clause.resolve, Traversal.bind_eq_ok_iff, pure, Except.pure, Except.ok.injEq]
      at hresolve
    obtain ⟨value, hvalue, id, hid, rfl⟩ := hresolve
    obtain ⟨hreserved, rfl⟩ := Token.identifier_eq_ok_iff.mp hid
    obtain ⟨⟨rest, hrest⟩, hitems⟩ := List.forall_mem_cons.mp hfits
    rw [Effect.identifiers, List.forall_mem_cons]
    refine ⟨.inr ⟨⟨_, _, rfl⟩, Token.isWord_of_fits hrest htarget, hreserved⟩, ?_⟩
    exact fun id hmem => .inl
      (isName_of_spells hspells hvalue (List.forall_mem_cons.mp hitems).2 id hmem)
  | call _ _ hargs =>
    simp only [Clause.resolve, Traversal.bind_eq_ok_iff, pure, Except.pure, Except.ok.injEq]
      at hresolve
    obtain ⟨args, hargs', rfl⟩ := hresolve
    obtain ⟨-, hitems⟩ := List.forall_mem_cons.mp hfits
    exact fun id hmem => .inl
      (isName_of_spellsArguments hargs hargs' (List.forall_mem_cons.mp hitems).2 id hmem)

/--
Every identifier of a text is an identifier on its own, except that the target of an assignment can
be a word that is a literal or an operator.
-/
theorem isBare_of_mem_identifiers [Limits] (t : Text) :
    (∀ e, parse t = .ok e → ∀ id ∈ e.identifiers, IsBare id.name) ∧
      ∀ effects, parseAction t = .ok effects → ∀ effect ∈ effects, ∀ id ∈ effect.identifiers,
        IsBare id.name ∨ effect.AssignsKeyword id := by
  constructor
  . intro e h id hid
    rw [parse, Traversal.bind_eq_ok_iff] at h
    obtain ⟨p, hread, hresolve⟩ := h
    obtain ⟨is, hlayout, hspells⟩ := exists_spells_of_read hread
    have hfits := List.forall_mem_map.mp hlayout.fits
    exact (isName_of_spells hspells hresolve hfits id hid).isBare
  . intro effects h effect heffect id hid
    rw [parseAction, Traversal.bind_eq_ok_iff] at h
    obtain ⟨clauses, hread, hresolve⟩ := h
    obtain ⟨is, hlayout, haction⟩ := exists_spells_of_readAction hread
    obtain ⟨clause, hclause, heffect'⟩ := Traversal.exists_of_mem_mapM hresolve heffect
    obtain ⟨js, hspells, hsubset⟩ := haction.exists_spellsClause clause hclause
    have hfits := List.forall_mem_map.mp hlayout.fits
    rcases isName_of_spellsClause hspells heffect' (fun item hitem => hfits item (hsubset hitem))
      id hid with hname | ⟨htarget, hword, hreserved⟩
    . exact .inl hname.isBare
    . by_cases hkeyword : ∃ keyword : Keyword, keyword.text = id.name
      . refine .inr ⟨htarget, hkeyword, hreserved, ?_⟩
        obtain ⟨keyword, heq⟩ := hkeyword
        rw [← heq]
        exact parse_keyword_ne keyword
      . exact .inl (IsName.isBare ⟨hword, not_exists.mp hkeyword, hreserved⟩)

theorem isBare_of_mem_identifiers_sample :
    (∃ e, parse "[a, \x7bb\x7d]" = .ok e ∧
      e.identifiers.map Identifier.name = (["a", "b"] : List Text) ∧
      ∀ id ∈ e.identifiers, IsBare id.name) ∧
    ∃ effects, parseAction "a = b null = c" = .ok effects ∧
      (identifiersOfEffects effects).map Identifier.name =
        (["a", "b", "null", "c"] : List Text) ∧
      ∀ effect ∈ effects, ∀ id ∈ effect.identifiers,
        IsBare id.name ∨ effect.AssignsKeyword id := by
  constructor
  . have hsample : (parse "[a, \x7bb\x7d]").toOption.map
        (fun e => e.identifiers.map Identifier.name) = some (["a", "b"] : List Text) := by
      decide +kernel
    obtain ⟨e, h, hnames⟩ := Traversal.exists_of_map_toOption hsample
    exact ⟨e, h, hnames, (isBare_of_mem_identifiers _).1 _ h⟩
  . have hsample : (parseAction "a = b null = c").toOption.map
        (fun effects => (identifiersOfEffects effects).map Identifier.name) =
          some (["a", "b", "null", "c"] : List Text) := by
      decide +kernel
    obtain ⟨effects, h, hnames⟩ := Traversal.exists_of_map_toOption hsample
    exact ⟨effects, h, hnames, (isBare_of_mem_identifiers _).2 _ h⟩

/--
A literal can be assigned to.
-/
theorem not_forall_isBare :
    ¬ ((∀ t e, parse t = .ok e → ∀ id ∈ e.identifiers, IsBare id.name) ∧
      ∀ t effects, parseAction t = .ok effects →
        ∀ id ∈ identifiersOfEffects effects, IsBare id.name) := by
  intro hall
  have htarget : (parseAction "true = 1").toOption.map identifiersOfEffects =
      some [⟨Keyword.trueWord.text, 0, 4, false⟩] := by
    decide +kernel
  obtain ⟨effects, h, hids⟩ := Traversal.exists_of_map_toOption htarget
  have hbare := hall.2 _ _ h ⟨Keyword.trueWord.text, 0, 4, false⟩ (by simp [hids])
  exact parse_keyword_ne .trueWord _ hbare.parse

end Expression

end PageBinding
