import PageBinding.Proofs.Expression.Effects
import PageBinding.Proofs.Expression.Interlude

/-!
This module contains what stands between the effects of an action. Nothing has to: the parser knows
where an effect ends by the next token, and semicolons and line ends are as good as any white space.
-/

namespace PageBinding

namespace Expression

/--
A part of an action: an effect from its first token to its last one, and what stands between it and
the next effect, or the end.
-/
structure Step where
  body : Text
  tail : Text

def stepsText (steps : List Step) : Text :=
  steps.flatMap fun step => step.body ++ step.tail

theorem stepsText_cons (step : Step) (steps : List Step) :
    stepsText (step :: steps) = step.body ++ (step.tail ++ stepsText steps) := by
  rw [stepsText, List.flatMap_cons, List.append_assoc]
  rfl

/--
In front of the rest of an action, a step is the text of an effect and an interlude. They can touch
the effect behind them if the last token is no word.
-/
structure Step.Reads [Limits] (step : Step) (rest : Text) (effect : Effect) : Prop where
  tokens : ∃ ws w, Framed (step.tail ++ rest) step.body ws ∧
    (∃ name ∈ ws.head?, name.terminal = .name) ∧ w ∈ ws.getLast? ∧ w.Ends ∧
    (step.tail = [] → rest ≠ [] → w.terminal.base ≠ .name)
  effect : ∃ effect', parseAction step.body = .ok [effect'] ∧ effect'.bare = effect.bare
  tail : Interlude rest step.tail

inductive Laid [Limits] : List Effect → List Step → Prop where
  | nil : Laid [] []
  | cons {effect : Effect} {effects : List Effect} {step : Step} {steps : List Step} :
      step.Reads (stepsText steps) effect → Laid effects steps →
      Laid (effect :: effects) (step :: steps)

inductive Parted : List Step → Prop where
  | nil : Parted []
  | cons {step : Step} {steps : List Step} :
      Interlude (stepsText steps) step.tail → (steps ≠ [] → step.tail ≠ []) → Parted steps →
      Parted (step :: steps)

/--
An interlude has a semicolon or a line feed outside of its comments.
-/
def Separates (rest t : Text) : Prop :=
  ∃ before c after, t = before ++ c :: after ∧ Interlude (c :: (after ++ rest)) before ∧
    (c.is ';' = true ∨ c.is '\n' = true)

structure Effect.Stands [Limits] (effect : Effect) (ws : List Lexeme) : Prop where
  denotes : DenotesEffect effect ws
  name : ∃ name ∈ ws.head?, name.terminal = .name
  chain : ws.IsChain Lexeme.Precedes
  ends : ∃ w ∈ ws.getLast?, w.Ends

/--
Steps whose bodies are read as the effects of an action wherever there is a break behind them.
-/
inductive Pieces [Limits] : List Effect → List Step → Prop where
  | nil : Pieces [] []
  | cons {effect : Effect} {effects : List Effect} {step : Step} {steps : List Step}
      {ws : List Lexeme} :
      effect.Stands ws → Framed (step.tail ++ stepsText steps) step.body ws →
      Interlude (stepsText steps) step.tail → Pieces effects steps →
      Pieces (effect :: effects) (step :: steps)

section Ends

variable {is js : List Item}

/--
The last one of some tokens is one that a phrase or a call can end with.
-/
def EndsItems (is : List Item) : Prop :=
  ∃ item ∈ is.getLast?, item.token.lexeme.Ends

theorem EndsItems.append (h : EndsItems js) (is : List Item) : EndsItems (is ++ js) := by
  obtain ⟨item, hmem, hends⟩ := h
  refine ⟨item, ?_, hends⟩
  rw [List.getLast?_append, Option.mem_def.mp hmem]
  rfl

theorem EndsItems.cons (h : EndsItems js) (item : Item) : EndsItems (item :: js) :=
  h.append [item]

theorem endsItems_singleton {item : Item} (h : item.token.lexeme.Ends) : EndsItems [item] :=
  ⟨item, rfl, h⟩

theorem endsItems_mark {token : Token} {w : Lexeme} (h : token.lexeme = w) (hw : w.Ends) :
    EndsItems [token.plain] :=
  endsItems_singleton (by rwa [← h] at hw)

theorem endsItems_terminal {item : Item} {terminal : Terminal}
    (h : item.token.terminal = terminal) (hends : Lexeme.Ends ⟨terminal, []⟩) :
    EndsItems [item] := by
  apply endsItems_singleton
  rwa [← h] at hends

end Ends

theorem Spells.endsItems {part : Part} {is : List Item} (h : Spells part is) : EndsItems is := by
  induction h with
  | weaken _ _ ih => exact ih
  | number hterminal | string hterminal => exact endsItems_terminal hterminal (by decide)
  | name hterminal _ | shorthand hterminal _ => exact endsItems_terminal hterminal (by decide)
  | @bool _ b htoken => exact endsItems_mark htoken (by cases b <;> decide)
  | null htoken => exact endsItems_mark htoken (by decide)
  | group _ _ hright _ => exact ((endsItems_mark hright (by decide)).append _).cons _
  | array _ _ ih | object _ _ ih | unary _ _ ih => exact ih.cons _
  | binary _ _ _ _ ih => exact (ih.cons _).append _
  | conditional _ _ _ _ _ _ _ ih => exact (((ih.cons _).append _).cons _).append _
  | @member _ word _ _ _ _ _ hword _ =>
    have hlabel : EndsItems [word.plain] := by
      rcases hword with ⟨hterminal, -⟩ | ⟨keyword, hterminal⟩
      . exact endsItems_terminal hterminal (by decide)
      . exact endsItems_terminal hterminal (by cases keyword <;> decide)
    exact (hlabel.cons _).append _
  | index _ _ _ hright _ _ =>
    exact (((endsItems_mark hright (by decide)).append _).cons _).append _
  | optionalIndex _ _ _ _ hright _ _ =>
    exact ((((endsItems_mark hright (by decide)).append _).cons _).cons _).append _
  | closeItems hright | closeEntries hright => exact endsItems_mark hright (by decide)
  | lastItem _ hright _ | lastEntry _ hright _ =>
    exact (endsItems_mark hright (by decide)).append _
  | moreItems _ _ _ _ ih | moreEntries _ _ _ _ ih => exact (ih.cons _).append _
  | keyed _ _ _ ih => exact (ih.cons _).cons _
  | computed _ _ _ _ _ _ ih => exact ih.append _

theorem SpellsArguments.endsItems {ps : List Phrase} {is : List Item}
    (h : SpellsArguments ps is) : EndsItems is := by
  induction h with
  | close hright => exact endsItems_mark hright (by decide)
  | last _ hright => exact (endsItems_mark hright (by decide)).append _
  | more _ _ _ ih => exact (ih.cons _).append _

theorem SpellsArguments.isChain {ps : List Phrase} {is : List Item}
    (h : SpellsArguments ps is) : is.IsChain Item.Precedes := by
  have hmark {token : Token} {w : Lexeme} (htoken : token.lexeme = w) (hw : w ∈ Lexeme.marks) :
      token.lexeme ∈ Lexeme.marks := by rwa [htoken]
  induction h with
  | close _ => exact .singleton _
  | last hspells hright =>
    exact isChain_append_mark hspells.isChain (hmark hright (by decide)) .nil
  | more hspells hcomma _ ih =>
    exact isChain_append_mark hspells.isChain (hmark hcomma (by decide)) ih

theorem SpellsClause.stands [Limits] {clause : Clause} {is : List Item} {effect : Effect}
    (h : SpellsClause clause is) (hresolve : clause.resolve = .ok effect)
    (hfits : ∀ token ∈ is.map Item.token, ∃ rest, token.lexeme.Fits rest) :
    effect.Stands ((is.map Item.token).map Token.lexeme) := by
  refine ⟨h.denotes hresolve hfits, ?_, ?_, ?_⟩
  . cases h with
    | assignment htarget _ _ => exact ⟨_, rfl, htarget⟩
    | call hname _ _ => exact ⟨_, rfl, hname⟩
  . have hchain : is.IsChain Item.Precedes := by
      cases h with
      | assignment htarget hoperator hspells =>
        refine List.isChain_cons.mpr ⟨fun _ _ heq => ?_,
          isChain_cons_plain (by simp [hoperator]) hspells.isChain⟩
        exact absurd (htarget.symm.trans heq) nofun
      | call hname hleft hargs =>
        refine isChain_cons_plain (by simp [hname]) (isChain_cons_mark ?_ hargs.isChain)
        rw [hleft]
        decide
    rw [List.map_map, List.isChain_map]
    exact hchain
  . have hends : EndsItems is := by
      cases h with
      | assignment _ _ hspells => exact (hspells.endsItems.cons _).cons _
      | call _ _ hargs => exact (hargs.endsItems.cons _).cons _
    obtain ⟨item, hmem, hends⟩ := hends
    refine ⟨item.token.lexeme, ?_, hends⟩
    rw [List.getLast?_map, List.getLast?_map, Option.mem_def.mp hmem]
    rfl

namespace Pieces

variable [Limits] {effects : List Effect} {steps steps' : List Step}

theorem exists_of_spells {clauses : List Clause} {is : List Item} {pos : Position}
    {t : Text}
    (h : SpellsAction clauses is) (hlayout : Layout pos t (is.map Item.token))
    (hresolve : clauses.mapM Clause.resolve = .ok effects) :
    ∃ lead steps, t = lead ++ stepsText steps ∧ Interlude (stepsText steps) lead ∧
      Pieces effects steps := by
  induction h generalizing pos t effects with
  | nil =>
    cases hresolve
    exact ⟨t, [], (List.append_nil t).symm, .gaps hlayout.gaps, .nil⟩
  | @semicolon token _ _ htoken _ ih =>
    obtain ⟨g, rest, pos', rfl, hgaps, -, hlayout'⟩ := hlayout.exists_token
    obtain ⟨lead, steps, rfl, hlead, hpieces⟩ := ih hlayout' hresolve
    have htext : token.plain.token.text = Lexeme.semicolon.text := congrArg Lexeme.text htoken
    rw [htext] at hgaps ⊢
    refine ⟨_, steps, ?_, .semicolon hgaps hlead, hpieces⟩
    simp only [List.append_assoc]
  | @clause _ _ is js hclause _ ih =>
    have hfits := hlayout.fits
    rw [List.map_append] at hlayout hfits
    obtain ⟨effect, effects', heffect, hrest, rfl⟩ := Traversal.mapM_cons_eq_ok_iff.mp hresolve
    have hstands := hclause.stands heffect (List.forall_mem_append.mp hfits).1
    have hne : is.map Item.token ≠ [] := by
      cases hclause <;> exact List.cons_ne_nil _ _
    obtain ⟨g, body, rest, pos', rfl, hgaps, hframed, hlayout'⟩ := hlayout.exists_framed hne
    obtain ⟨lead, steps, rfl, hlead, hpieces⟩ := ih hlayout' hrest
    refine ⟨g, ⟨body, lead⟩ :: steps, ?_, .gaps ?_, .cons hstands hframed hlead hpieces⟩
    . rw [stepsText_cons]
    . rwa [stepsText_cons]

theorem isNameStart_of_head (h : Pieces effects steps) :
    ∀ c ∈ (stepsText steps).head?, isNameStart c = true := by
  cases h with
  | nil => exact nofun
  | cons hstands hframed _ _ =>
    rw [stepsText_cons]
    exact hframed.isNameStart_of_head hstands.name _

theorem laid (h : Pieces effects steps) : Laid effects steps := by
  induction h with
  | nil => exact .nil
  | @cons effect effects step steps ws hstands hframed htail hpieces ih =>
    refine .cons ⟨?_, ?_, htail⟩ ih
    . obtain ⟨w, hmem, hends⟩ := hstands.ends
      refine ⟨ws, w, hframed, hstands.name, hmem, hends, fun hnil hne hbase => ?_⟩
      -- A word would go on with the name behind it.
      have hfits := hframed.fits_getLast w hmem
      rw [hnil, List.nil_append] at hfits
      obtain ⟨c, rest, hrest⟩ := List.exists_cons_of_ne_nil hne
      have hc : c ∈ (stepsText steps).head? := by rw [hrest]; rfl
      have hpart := (hfits.isWord hbase).2 c hc
      rw [isNamePart_of_isNameStart (hpieces.isNameStart_of_head c hc)] at hpart
      cases hpart
    . have halone : Framed [] step.body ws := hframed.of_ends hstands.chain hstands.ends nofun
      obtain ⟨effects', hparse, heq⟩ :=
        (DenotesAction.effect hstands.denotes .nil).parse (halone.lexes .nil)
      rw [List.append_nil] at hparse
      obtain ⟨effect', rest, rfl, heq', hrest⟩ := List.map_eq_cons_iff.mp heq
      obtain rfl := List.map_eq_nil_iff.mp hrest
      exact ⟨effect', hparse, heq'⟩

theorem denotes (h : Pieces effects steps)
    (hbody : steps'.map Step.body = steps.map Step.body)
    (hparted : Parted steps') :
    ∃ ws, Lexes (stepsText steps') ws ∧ DenotesAction effects ws := by
  induction h generalizing steps' with
  | nil =>
    obtain rfl := List.map_eq_nil_iff.mp hbody
    exact ⟨[], .nil, .nil⟩
  | @cons effect effects step steps ws hstands hframed _ _ ih =>
    obtain ⟨step', rest, rfl, hbody', hrest⟩ := List.map_eq_cons_iff.mp hbody
    cases hparted with
    | cons htail hne hparted =>
      obtain ⟨vs, hlexes, haction⟩ := ih hrest hparted
      obtain ⟨n, htail'⟩ := htail.lexes hlexes
      have hbreak : ∀ c ∈ (step'.tail ++ stepsText rest).head?, c ∈ breaks := by
        by_cases hnil : step'.tail = []
        . have hlast : rest = [] := by_contra fun hmore => hne hmore hnil
          rw [hnil, hlast]
          exact nofun
        . exact htail.head_mem_breaks hnil _
      have hframed' := hframed.of_ends hstands.chain hstands.ends hbreak
      refine ⟨_, ?_, .effect hstands.denotes (haction.semicolons n)⟩
      rw [stepsText_cons, hbody']
      exact hframed'.lexes htail'

end Pieces

/--
Between two effects of an action there are white space, comments and semicolons, or nothing if the
first one does not end with a word; any others in their place leave the effects as they are.
-/
theorem separation_of_parseAction [Limits] {t : Text} {effects : List Effect}
    (h : parseAction t = .ok effects) :
    ∃ lead steps, t = lead ++ stepsText steps ∧ Interlude (stepsText steps) lead ∧
      Laid effects steps ∧
      ∀ lead' steps', steps'.map Step.body = steps.map Step.body →
        Interlude (stepsText steps') lead' → Parted steps' →
        ∃ effects', parseAction (lead' ++ stepsText steps') = .ok effects' ∧
          effects'.map Effect.bare = effects.map Effect.bare := by
  rw [parseAction, Traversal.bind_eq_ok_iff] at h
  obtain ⟨clauses, hread, hresolve⟩ := h
  obtain ⟨is, hlayout, hspells⟩ := exists_spells_of_readAction hread
  obtain ⟨lead, steps, htext, hlead, hpieces⟩ := Pieces.exists_of_spells hspells hlayout hresolve
  refine ⟨lead, steps, htext, hlead, hpieces.laid, fun lead' steps' hbody hlead' hparted => ?_⟩
  obtain ⟨ws, hlexes, haction⟩ := hpieces.denotes hbody hparted
  obtain ⟨n, hlexes'⟩ := hlead'.lexes hlexes
  exact (haction.semicolons n).parse hlexes'

/--
Three effects that touch, or have a comment alone between them.
-/
theorem separation_of_parseAction_touching :
    ∃ effects, parseAction "a=[1]b=c/**/emit(b)" = .ok effects ∧ effects.length = 3 ∧
      ∃ lead steps, Text.ofString "a=[1]b=c/**/emit(b)" = lead ++ stepsText steps ∧
        Interlude (stepsText steps) lead ∧ Laid effects steps ∧
        ∀ lead' steps', steps'.map Step.body = steps.map Step.body →
          Interlude (stepsText steps') lead' → Parted steps' →
          ∃ effects', parseAction (lead' ++ stepsText steps') = .ok effects' ∧
            effects'.map Effect.bare = effects.map Effect.bare := by
  have hlength : (parseAction "a=[1]b=c/**/emit(b)").toOption.map List.length = some 3 := by
    decide +kernel
  obtain ⟨effects, h, hlength⟩ := Traversal.exists_of_map_toOption hlength
  exact ⟨effects, h, hlength, separation_of_parseAction h⟩

theorem Laid.length_eq [Limits] {effects : List Effect} {steps : List Step}
    (h : Laid effects steps) :
    steps.length = effects.length := by
  induction h with
  | nil => rfl
  | cons _ _ ih => rw [List.length_cons, List.length_cons, ih]

/--
Two effects on one line, with a blank between them.
-/
theorem not_forall_separates :
    ¬ ∀ t effects, parseAction t = .ok effects →
      ∃ lead steps, t = lead ++ stepsText steps ∧ Interlude (stepsText steps) lead ∧
        Laid effects steps ∧
        ∀ before step next after, steps = before ++ step :: next :: after →
          Separates (stepsText (next :: after)) step.tail := by
  intro hall
  have hlength : (parseAction "a = 1 b = 2").toOption.map List.length = some 2 := by
    decide +kernel
  obtain ⟨effects, h, hlength⟩ := Traversal.exists_of_map_toOption hlength
  obtain ⟨lead, steps, htext, -, hlaid, hseparates⟩ := hall _ _ h
  obtain ⟨first, second, rfl⟩ := List.length_eq_two.mp (hlaid.length_eq.trans hlength)
  obtain ⟨before, c, after, htail, -, hc⟩ := hseparates [] first second [] rfl
  have hnone : (Text.ofString "a = 1 b = 2").all fun c => !(c.is ';' || c.is '\n') := by
    decide +kernel
  have hmem : c ∈ Text.ofString "a = 1 b = 2" := by
    rw [htext, stepsText_cons, htail]
    simp
  have hno := List.all_eq_true.mp hnone c hmem
  rw [Bool.not_eq_true', ← Bool.not_eq_true, Bool.or_eq_true] at hno
  exact hno hc

end Expression

end PageBinding
