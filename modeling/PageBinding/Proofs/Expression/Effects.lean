import PageBinding.Proofs.Expression.Action
import PageBinding.Proofs.Expression.Enclosed

/-!
This module contains that the parser reads whatever the grammar of actions has. The tokens of an
effect stand for it behind every other one, since the expression in front of them is settled by the
name that they start with.
-/

namespace PageBinding

namespace Expression

namespace Config

/--
What has been read is complete: the effects, last one first. The last one can be an assignment that
might have gone on.
-/
inductive Done : Config → List Clause → Prop where
  | effect {effects : List Clause} : Done ⟨.effect, [], effects⟩ effects
  | assignment {e p : Phrase} {frames : List Frame} {target operator : Token}
      {effects : List Clause} :
      settle 0 e frames = (p, [.assignment target operator]) →
      Done ⟨.ended e, frames, effects⟩ (.assignment target operator p :: effects)

section Done

variable {config : Config} {effects : List Clause} {token : Token} {t : Text} {ts : List Token}

theorem Done.steps_semicolon (h : config.Done effects) (htoken : token.lexeme = .semicolon) :
    Steps config [token] ⟨.effect, [], effects⟩ := by
  have hterminal : token.terminal = .semicolon := congrArg Lexeme.terminal htoken
  have htext : BinaryOp.ofText? token.text = none := by
    rw [show token.text = ";" from congrArg Lexeme.text htoken]
    rfl
  apply Steps.single
  . rw [hterminal]
    cases h <;> rfl
  . rw [hterminal]
    exact nofun
  . cases h with
    | effect => simp only [step, stepBetween, hterminal]
    | assignment hsettle => simp only [step, stepEnded, stepSettled, htext, hterminal, hsettle]

theorem Done.steps_name (h : config.Done effects) (hname : token.terminal = .name)
    (hword : IsWord token.text) : Steps config [token] ⟨.effectName token, [], effects⟩ := by
  obtain ⟨terminal, text, start⟩ := token
  cases hname
  cases h with
  | effect => exact .step ⟨rfl, fun _ _ _ => rfl⟩ rfl (.refl _)
  | assignment hsettle =>
    have htext : BinaryOp.ofText? text = none := by
      rw [Option.eq_none_iff_forall_ne_some]
      intro op hop
      exact op.not_isWord (BinaryOp.text_of_ofText? hop ▸ hword)
    refine .step ⟨rfl, fun _ _ _ => rfl⟩ ?_ (.refl _)
    simp only [step, stepEnded, stepSettled, htext, hsettle]

theorem Done.read_eq (h : config.Done effects) (hlayout : Layout .start t ts)
    (hsteps : Steps .action ts config) : Clause.read t = .ok effects.reverse := by
  obtain ⟨place, hrun⟩ := run_of_layout hlayout hsteps Position.start.place
  rw [Clause.read, hrun]
  cases h with
  | effect => rfl
  | assignment hsettle =>
    simp only [bind, Except.bind, hsettle]
    rfl

end Done

end Config

/--
Tokens are read as the arguments that are left of a call, up to its closing parenthesis.
-/
def ParsesArguments (ps : List Phrase) (ts : List Token) : Prop :=
  ∀ name args effects, Config.Steps ⟨.operand, [.call name args], effects⟩ ts
    ⟨.effect, [], .call name (args.reverse ++ ps) :: effects⟩

namespace ParsesArguments

open Config

variable {p : Phrase} {ps : List Phrase} {ts us : List Token}

theorem close (pos : Position) : ParsesArguments [] [Lexeme.rightParen.token pos] := by
  intro name args effects
  rw [List.append_nil]
  exact .single rfl nofun rfl

theorem last (h : Parses 0 p ts) (pos : Position) :
    ParsesArguments [p] (ts ++ [Lexeme.rightParen.token pos]) := by
  intro name args effects
  obtain ⟨e, rest, hsteps, hsettle⟩ := h.enclosed (.call name args) (fun _ => rfl) [] effects
  refine hsteps.append (.single rfl nofun ?_)
  simp only [step, stepEnded, hsettle, ← List.reverse_cons]
  rfl

theorem more (h : Parses 0 p ts) (hrest : ParsesArguments ps us) (pos : Position) :
    ParsesArguments (p :: ps) (ts ++ Lexeme.comma.token pos :: us) := by
  intro name args effects
  obtain ⟨e, rest, hsteps, hsettle⟩ := h.enclosed (.call name args) (fun _ => rfl) [] effects
  have hargs := hrest name (p :: args) effects
  rw [List.reverse_cons, List.append_assoc, List.singleton_append] at hargs
  refine hsteps.append (.cons rfl nofun ?_ hargs)
  simp only [step, stepEnded, hsettle]
  rfl

end ParsesArguments

/--
The effect without the positions in it, and with no mark on the entries of objects in which key and
value are one name.
-/
def Effect.bare : Effect → Effect
  | .assignment target operator value => .assignment target.bare operator value.bare
  | .call name args => .call name (mapIdentifiersOfList Identifier.bare args)

/--
Tokens stand for the arguments that are left of a call, up to its closing parenthesis.
-/
def DenotesArguments (es : List Expr) (ws : List Lexeme) : Prop :=
  ∀ ts : List Token, ts.map Token.lexeme = ws →
    ∃ ps, ParsesArguments ps ts ∧ ItemsResolve Identifier.bare ps es

def DenotesEffect [Limits] (effect : Effect) (ws : List Lexeme) : Prop :=
  ∀ ts : List Token, ts.map Token.lexeme = ws → ∀ config effects, Config.Done config effects →
    ∃ (next : Config) (clause : Clause) (effect' : Effect),
      Config.Steps config ts next ∧ next.Done (clause :: effects) ∧
      clause.resolve = .ok effect' ∧ effect'.bare = effect.bare

inductive DenotesAction [Limits] : List Effect → List Lexeme → Prop where
  | nil : DenotesAction [] []
  | semicolon {effects : List Effect} {ws : List Lexeme} :
      DenotesAction effects ws → DenotesAction effects (.semicolon :: ws)
  | effect {effect : Effect} {effects : List Effect} {us vs : List Lexeme} :
      DenotesEffect effect us → DenotesAction effects vs →
      DenotesAction (effect :: effects) (us ++ vs)

namespace DenotesArguments

variable {a : Expr} {es : List Expr} {us vs : List Lexeme}

theorem close : DenotesArguments [] [.rightParen] := by
  intro tokens htokens
  obtain ⟨start, rfl⟩ := map_lexeme_eq_singleton htokens
  exact ⟨[], .close start, .nil⟩

theorem last (h : Denotes Identifier.bare 0 a us) :
    DenotesArguments [a] (us ++ [.rightParen]) := by
  intro tokens htokens
  obtain ⟨ts, right, rfl, hts, hright⟩ := List.map_eq_append_iff.mp htokens
  obtain ⟨stop, rfl⟩ := map_lexeme_eq_singleton hright
  obtain ⟨p, hparses, hresolves⟩ := h ts hts
  exact ⟨[p], .last hparses stop, .cons hresolves .nil⟩

theorem more (h : Denotes Identifier.bare 0 a us) (hrest : DenotesArguments es vs) :
    DenotesArguments (a :: es) (us ++ .comma :: vs) := by
  intro tokens htokens
  obtain ⟨ts, tail, rfl, hts, htail⟩ := List.map_eq_append_iff.mp htokens
  obtain ⟨start, ts', rfl, hts'⟩ := map_lexeme_eq_cons htail
  obtain ⟨p, hparses, hresolves⟩ := h ts hts
  obtain ⟨ps, hparses', hresolves'⟩ := hrest ts' hts'
  exact ⟨p :: ps, .more hparses hparses' start, .cons hresolves hresolves'⟩

end DenotesArguments

theorem SpellsArguments.denotes {ps : List Phrase} {is : List Item} {es : List Expr} {room : Nat}
    (h : SpellsArguments ps is) (hresolve : resolveList room ps = .ok es)
    (hfits : ∀ token ∈ is.map Item.token, ∃ rest, token.lexeme.Fits rest) :
    DenotesArguments es ((is.map Item.token).map Token.lexeme) := by
  induction h generalizing es with
  | close hright =>
    cases hresolve
    simpa [hright] using DenotesArguments.close
  | last hspells hright =>
    obtain ⟨a, as, ha, has, rfl⟩ := exists_of_resolveList hresolve
    cases has
    rw [List.map_append] at hfits
    have hlast := DenotesArguments.last
      (hspells.denotes ha (List.forall_mem_append.mp hfits).1)
    simpa [hright] using hlast
  | more hspells hcomma _ ih =>
    obtain ⟨a, as, ha, has, rfl⟩ := exists_of_resolveList hresolve
    rw [List.map_append] at hfits
    obtain ⟨hfirst, hrest⟩ := List.forall_mem_append.mp hfits
    have hmore := DenotesArguments.more (hspells.denotes ha hfirst)
      (ih has (List.forall_mem_cons.mp hrest).2)
    simpa [hcomma] using hmore

variable [Limits]

section Clause

variable {id : Identifier} {name operator : Text} {a : Expr} {es : List Expr} {ws : List Lexeme}

theorem denotes_assignment (hword : IsWord id.name)
    (hreserved : isReserved id.name = false)
    (h : Denotes Identifier.bare 0 a ws) (hdepth : a.depth ≤ Limits.maxDepth) :
    DenotesEffect (.assignment id operator a) (⟨.name, id.name⟩ :: ⟨.assign, operator⟩ :: ws) := by
  intro tokens htokens config effects hdone
  obtain ⟨start, tail, rfl, htail⟩ := map_lexeme_eq_cons htokens
  obtain ⟨start', ts, rfl, hts⟩ := map_lexeme_eq_cons htail
  obtain ⟨p, hparses, hresolves⟩ := h ts hts
  -- The expression is read inside of the frame of the assignment, which no operator completes.
  obtain ⟨e, frames, hsteps, hsettle⟩ := hparses.enclosed
    (.assignment (Lexeme.token ⟨.name, id.name⟩ start) (Lexeme.token ⟨.assign, operator⟩ start'))
    (fun _ => rfl) [] effects
  obtain ⟨value, hvalue, heq⟩ := hresolves Limits.maxDepth hdepth
  have htarget : Token.identifier ⟨.name, id.name, start⟩ false =
      .ok ⟨id.name, start.offset, start.offset + id.name.length, false⟩ :=
    Token.identifier_eq_ok_iff.mpr ⟨hreserved, rfl⟩
  have hname := hdone.steps_name (@rfl _ (Lexeme.token ⟨.name, id.name⟩ start).terminal) hword
  refine ⟨_, _, .assignment ⟨id.name, start.offset, start.offset + id.name.length, false⟩ operator
    value, hname.append (.cons rfl nofun rfl hsteps), .assignment hsettle, ?_, ?_⟩
  . simp only [Clause.resolve, Lexeme.token, hvalue, htarget]
    rfl
  . simp only [Effect.bare, Expr.bare, heq, Identifier.bare]

theorem denotes_call (hword : IsWord name) (h : DenotesArguments es ws)
    (hdepth : depthOfList es ≤ Limits.maxDepth) :
    DenotesEffect (.call name es) (⟨.name, name⟩ :: .leftParen :: ws) := by
  intro tokens htokens config effects hdone
  obtain ⟨start, tail, rfl, htail⟩ := map_lexeme_eq_cons htokens
  obtain ⟨start', ts, rfl, hts⟩ := map_lexeme_eq_cons htail
  obtain ⟨ps, hparses, hresolves⟩ := h ts hts
  obtain ⟨args, hargs, heq⟩ := hresolves Limits.maxDepth hdepth
  have hname := hdone.steps_name (@rfl _ (Lexeme.token ⟨.name, name⟩ start).terminal) hword
  have hsteps := hparses (Lexeme.token ⟨.name, name⟩ start) [] effects
  refine ⟨_, _, .call name args, hname.append (.cons rfl nofun rfl hsteps), .effect, ?_, ?_⟩
  . simp only [Clause.resolve, Lexeme.token, List.reverse_nil, List.nil_append, hargs]
    rfl
  . simp only [Effect.bare, heq]

end Clause

theorem SpellsClause.denotes {clause : Clause} {is : List Item} {effect : Effect}
    (h : SpellsClause clause is) (hresolve : clause.resolve = .ok effect)
    (hfits : ∀ token ∈ is.map Item.token, ∃ rest, token.lexeme.Fits rest) :
    DenotesEffect effect ((is.map Item.token).map Token.lexeme) := by
  cases h with
  | @assignment target operator p is htarget hoperator hspells =>
    simp only [Clause.resolve, Traversal.bind_eq_ok_iff, pure, Except.pure, Except.ok.injEq]
      at hresolve
    obtain ⟨value, hvalue, id, hid, rfl⟩ := hresolve
    obtain ⟨hreserved, rfl⟩ := Token.identifier_eq_ok_iff.mp hid
    obtain ⟨⟨rest, hrest⟩, hitems⟩ := List.forall_mem_cons.mp hfits
    have hdenotes := hspells.denotes hvalue (List.forall_mem_cons.mp hitems).2
    have hassignment := @denotes_assignment _
      ⟨target.text, target.start.offset, target.stop, false⟩ operator.text _ _
      (Token.isWord_of_fits hrest htarget) hreserved hdenotes (depth_le_of_resolve hvalue)
    have htarget' : target.lexeme = ⟨.name, target.text⟩ := by rw [Token.lexeme, htarget]
    have hoperator' : operator.lexeme = ⟨.assign, operator.text⟩ := by
      rw [Token.lexeme, hoperator]
    simpa [htarget', hoperator'] using hassignment
  | @call name left ps is hname hleft hargs =>
    simp only [Clause.resolve, Traversal.bind_eq_ok_iff, pure, Except.pure, Except.ok.injEq]
      at hresolve
    obtain ⟨args, hargs', rfl⟩ := hresolve
    obtain ⟨⟨rest, hrest⟩, hitems⟩ := List.forall_mem_cons.mp hfits
    have hdenotes := hargs.denotes hargs' (List.forall_mem_cons.mp hitems).2
    have hcall := denotes_call (Token.isWord_of_fits hrest hname) hdenotes
      (depthOfList_le_of_resolveList hargs')
    have hname' : name.lexeme = ⟨.name, name.text⟩ := by rw [Token.lexeme, hname]
    simpa [hname', hleft] using hcall

namespace DenotesAction

variable {effects : List Effect} {ws : List Lexeme} {t : Text}

theorem semicolons (h : DenotesAction effects ws) (n : Nat) :
    DenotesAction effects (List.replicate n .semicolon ++ ws) := by
  induction n with
  | zero => exact h
  | succ n ih => exact .semicolon ih

theorem steps (h : DenotesAction effects ws) {ts : List Token}
    (hts : ts.map Token.lexeme = ws)
    {config : Config} {done : List Clause} (hdone : config.Done done) :
    ∃ (next : Config) (clauses : List Clause) (effects' : List Effect),
      Config.Steps config ts next ∧ next.Done (clauses.reverse ++ done) ∧
      clauses.mapM Clause.resolve = .ok effects' ∧
      effects'.map Effect.bare = effects.map Effect.bare := by
  induction h generalizing ts config done with
  | nil =>
    obtain rfl := List.map_eq_nil_iff.mp hts
    exact ⟨config, [], [], .refl _, hdone, rfl, rfl⟩
  | semicolon _ ih =>
    obtain ⟨token, us, rfl, htoken, hus⟩ := List.map_eq_cons_iff.mp hts
    obtain ⟨next, clauses, effects', hsteps, hnext, hresolve, heq⟩ := ih hus .effect
    exact ⟨next, clauses, effects', (hdone.steps_semicolon htoken).append hsteps, hnext, hresolve,
      heq⟩
  | effect heffect _ ih =>
    obtain ⟨us, vs, rfl, hus, hvs⟩ := List.map_eq_append_iff.mp hts
    obtain ⟨config', clause, effect', hsteps, hdone', hresolve, heq⟩ :=
      heffect us hus config done hdone
    obtain ⟨next, clauses, effects', hsteps', hnext, hresolve', heq'⟩ := ih hvs hdone'
    refine ⟨next, clause :: clauses, effect' :: effects', hsteps.append hsteps', ?_, ?_, ?_⟩
    . rwa [List.reverse_cons, List.append_assoc]
    . exact Traversal.mapM_cons_eq_ok_iff.mpr ⟨_, _, hresolve, hresolve', rfl⟩
    . rw [List.map_cons, List.map_cons, heq, heq']

theorem parse (h : DenotesAction effects ws) (hlexes : Lexes t ws) :
    ∃ effects', parseAction t = .ok effects' ∧
      effects'.map Effect.bare = effects.map Effect.bare := by
  obtain ⟨ts, hlayout, hts⟩ := hlexes .start
  obtain ⟨next, clauses, effects', hsteps, hdone, hresolve, heq⟩ := h.steps hts .effect
  refine ⟨effects', ?_, heq⟩
  rw [parseAction, hdone.read_eq hlayout hsteps, List.append_nil, List.reverse_reverse]
  exact hresolve

end DenotesAction

end Expression

end PageBinding
