import PageBinding.Proofs.Expression.Occurrences
import PageBinding.Proofs.Expression.Spelling

/-!
This module contains the grammar of actions, and that the parser reads nothing but what it has. Each
effect is read as an expression is, inside of the frame of the effect, until a token comes that the
expression has no place for.
-/

namespace PageBinding

namespace Expression

inductive SpellsArguments : List Phrase → List Item → Prop where
  | close {right : Token} : right.lexeme = .rightParen → SpellsArguments [] [right.plain]
  | last {right : Token} {p : Phrase} {is : List Item} :
      Spells (.phrase 0 p) is → right.lexeme = .rightParen →
      SpellsArguments [p] (is ++ [right.plain])
  | more {comma : Token} {p : Phrase} {ps : List Phrase} {is js : List Item} :
      Spells (.phrase 0 p) is → comma.lexeme = .comma → SpellsArguments ps js →
      SpellsArguments (p :: ps) (is ++ comma.plain :: js)

/--
The tokens of an effect. Any word can be the name at its start, also one that means something else
in an expression.
-/
inductive SpellsClause : Clause → List Item → Prop where
  | assignment {target operator : Token} {p : Phrase} {is : List Item} :
      target.terminal = .name → operator.terminal = .assign → Spells (.phrase 0 p) is →
      SpellsClause (.assignment target operator p) (⟨target, .name⟩ :: operator.plain :: is)
  | call {name left : Token} {ps : List Phrase} {is : List Item} :
      name.terminal = .name → left.lexeme = .leftParen → SpellsArguments ps is →
      SpellsClause (.call name ps) (name.plain :: left.plain :: is)

/--
The tokens of an action. Semicolons can stand between its effects, but none has to.
-/
inductive SpellsAction : List Clause → List Item → Prop where
  | nil : SpellsAction [] []
  | semicolon {token : Token} {clauses : List Clause} {is : List Item} :
      token.lexeme = .semicolon → SpellsAction clauses is →
      SpellsAction clauses (token.plain :: is)
  | clause {clause : Clause} {clauses : List Clause} {is js : List Item} :
      SpellsClause clause is → SpellsAction clauses js →
      SpellsAction (clause :: clauses) (is ++ js)

namespace SpellsAction

variable {clause : Clause} {clauses more : List Clause} {is js : List Item} {token : Token}

theorem append (h : SpellsAction clauses is) (h' : SpellsAction more js) :
    SpellsAction (clauses ++ more) (is ++ js) := by
  induction h with
  | nil => exact h'
  | semicolon htoken _ ih => exact .semicolon htoken ih
  | clause hclause _ ih =>
    rw [List.append_assoc]
    exact .clause hclause ih

theorem snoc (h : SpellsAction clauses is) (hclause : SpellsClause clause js) :
    SpellsAction (clauses ++ [clause]) (is ++ js) := by
  have happend := h.append (.clause hclause .nil)
  rwa [List.append_nil] at happend

theorem snoc_semicolon (h : SpellsAction clauses is) (htoken : token.lexeme = .semicolon) :
    SpellsAction clauses (is ++ [token.plain]) := by
  have happend := h.append (.semicolon htoken .nil)
  rwa [List.append_nil] at happend

end SpellsAction

def ArgumentsRead (ps : List Phrase) (is : List Item) : Prop :=
  ∀ qs js, SpellsArguments qs js → SpellsArguments (ps.reverse ++ qs) (is ++ js)

inductive Frame.OpensEffect : Frame → List Item → Prop where
  | assignment {target operator : Token} :
      target.terminal = .name → operator.terminal = .assign →
      OpensEffect (.assignment target operator) [⟨target, .name⟩, operator.plain]
  | call {name left : Token} {ps : List Phrase} {is : List Item} :
      name.terminal = .name → left.lexeme = .leftParen → ArgumentsRead ps is →
      OpensEffect (.call name ps) (name.plain :: left.plain :: is)

namespace ArgumentsRead

variable {p : Phrase} {ps : List Phrase} {is js : List Item} {token : Token}

theorem nil : ArgumentsRead [] [] :=
  fun _ _ h => h

theorem more (h : ArgumentsRead ps is) (hspells : Spells (.phrase 0 p) js)
    (htoken : token.lexeme = .comma) : ArgumentsRead (p :: ps) (is ++ (js ++ [token.plain])) := by
  intro qs ks hrest
  have hmore := h _ _ (.more hspells htoken hrest)
  simpa using hmore

theorem close (h : ArgumentsRead ps is) (htoken : token.lexeme = .rightParen) :
    SpellsArguments ps.reverse (is ++ [token.plain]) := by
  have hclose := h _ _ (.close htoken)
  rwa [List.append_nil] at hclose

theorem last (h : ArgumentsRead ps is) (hspells : Spells (.phrase 0 p) js)
    (htoken : token.lexeme = .rightParen) :
    SpellsArguments (p :: ps).reverse (is ++ (js ++ [token.plain])) := by
  rw [List.reverse_cons]
  exact h _ _ (.last hspells htoken)

end ArgumentsRead

theorem Frame.OpensEffect.isEffect {frame : Frame} {is : List Item} (h : frame.OpensEffect is) :
    frame.isEffect = true := by
  cases h <;> rfl

theorem Opened.isEffect_eq_false {frames : List Frame} {is : List Item} (h : Opened frames is) :
    ∀ frame ∈ frames, frame.isEffect = false := by
  induction h with
  | nil => exact List.forall_mem_nil _
  | cons _ _ hopens ih =>
    rw [List.forall_mem_cons]
    refine ⟨?_, ih⟩
    cases hopens <;> rfl

theorem State.Holds.isEffect_eq_false {state : State} {is : List Item} (h : state.Holds is) :
    state.isEffect = false := by
  cases h <;> rfl

namespace Config

def within (frame : Frame) (effects : List Clause) (config : Config) : Config :=
  ⟨config.state, config.frames ++ [frame], effects⟩

def finish (p : Phrase) (frame : Frame) (effects : List Clause) (token : Token) : Option Config :=
  match token.terminal, frame with
  | .comma, .call name args => some ⟨.operand, [.call name (p :: args)], effects⟩
  | .rightParen, .call name args => some ⟨.effect, [], .call name (p :: args).reverse :: effects⟩
  | .semicolon, .assignment target operator =>
    some ⟨.effect, [], .assignment target operator p :: effects⟩
  | .name, .assignment target operator =>
    some ⟨.effectName token, [], .assignment target operator p :: effects⟩
  | _, _ => none

def close (frame : Frame) (effects : List Clause) (token : Token) : Option Config :=
  match token.terminal, frame with
  | .rightParen, .call name args => some ⟨.effect, [], .call name args.reverse :: effects⟩
  | _, _ => none

section Within

variable {frame : Frame} {frames : List Frame} {effects : List Clause} {token : Token}

theorem settle_within (hframe : frame.isEffect = true) (level : Nat) (e : Phrase)
    (frames : List Frame) : settle level e (frames ++ [frame]) =
      ((settle level e frames).1, (settle level e frames).2 ++ [frame]) := by
  have hself (e : Phrase) : settle level e [frame] = (e, [frame]) := by
    cases frame with
    | assignment | call => rfl
    | _ => cases hframe
  fun_induction settle level e frames with
  | case1 e op rest ih => rw [List.cons_append, settle, ih]
  | case2 e op left rest hle ih => rw [List.cons_append, settle, if_pos hle, ih]
  | case3 e op left rest hlt => rw [List.cons_append, settle, if_neg hlt]
  | case4 e test consequent rest hzero ih => rw [List.cons_append, settle, if_pos hzero, ih]
  | case5 e test consequent rest hne => rw [List.cons_append, settle, if_neg hne]
  | case6 frames e hunary hbinary halternate =>
    cases frames with
    | nil => exact hself e
    | cons first rest =>
      cases first with
      | unary op => exact absurd rfl (hunary op rest)
      | binary op left => exact absurd rfl (hbinary op left rest)
      | alternate test consequent => exact absurd rfl (halternate test consequent rest)
      | _ => rfl

theorem mem_of_mem_settle {level : Nat} {e : Phrase} {inner : Frame}
    (h : inner ∈ (settle level e frames).2) : inner ∈ frames := by
  fun_induction settle level e frames with
  | case1 e op rest ih => exact List.mem_cons_of_mem _ (ih h)
  | case2 e op left rest hle ih => exact List.mem_cons_of_mem _ (ih h)
  | case4 e test consequent rest hzero ih => exact List.mem_cons_of_mem _ (ih h)
  | case3 | case5 | case6 => exact h

theorem stepEnded_within (done : List Clause) (hframe : frame.isEffect = true)
    (hframes : ∀ inner ∈ frames, inner.isEffect = false) (e : Phrase) :
    stepEnded ⟨.ended e, frames ++ [frame], effects⟩ e token =
      match stepEnded ⟨.ended e, frames, done⟩ e token with
      | some next => some (next.within frame effects)
      | none =>
        match settle 0 e frames with
        | (p, []) => finish p frame effects token
        | _ => none := by
  unfold stepEnded
  simp only [settle_within hframe]
  cases BinaryOp.ofText? token.text with
  | some op => rfl
  | none =>
    dsimp only
    have hsettled : ∀ inner ∈ (settle 0 e frames).2, inner.isEffect = false :=
      fun inner hinner => hframes inner (mem_of_mem_settle hinner)
    obtain ⟨terminal, text, start⟩ := token
    generalize settle 1 e frames = tested
    generalize settle 0 e frames = settled at hsettled
    obtain ⟨p, rest⟩ := settled
    cases rest with
    | nil =>
      cases frame with
      | assignment | call => cases terminal <;> rfl
      | _ => cases hframe
    | cons inner rest =>
      have hinner := hsettled inner List.mem_cons_self
      cases inner with
      | assignment | call => cases hinner
      | _ => cases terminal <;> rfl

theorem stepOperand_within (done : List Clause) (hframe : frame.isEffect = true)
    (hframes : ∀ inner ∈ frames, inner.isEffect = false) :
    stepOperand ⟨.operand, frames ++ [frame], effects⟩ token =
      match stepOperand ⟨.operand, frames, done⟩ token with
      | some next => some (next.within frame effects)
      | none => if frames = [] then close frame effects token else none := by
  obtain ⟨terminal, text, start⟩ := token
  unfold stepOperand
  dsimp only
  generalize UnaryOp.ofText? text = op
  cases frames with
  | nil =>
    cases frame with
    | assignment | call => cases terminal with
      | word keyword => cases keyword <;> cases op <;> rfl
      | _ => cases op <;> rfl
    | _ => cases hframe
  | cons inner frames =>
    have hinner := hframes inner List.mem_cons_self
    cases inner with
    | assignment | call => cases hinner
    | _ => cases terminal with
      | word keyword => cases keyword <;> cases op <;> rfl
      | _ => cases op <;> rfl

theorem stepBetween_within {inner : Config} (hstate : inner.state.isEffect = false) :
    stepBetween (inner.within frame effects) token =
      (stepBetween inner token).map (within frame effects) := by
  obtain ⟨state, frames, done⟩ := inner
  obtain ⟨terminal, text, start⟩ := token
  cases state with
  | effect | effectName => cases hstate
  | member object optional => cases optional <;> cases terminal <;> rfl
  | _ => cases terminal <;> rfl

theorem accepts_within (hframe : frame.isEffect = true) (inner : Config) (terminal : Terminal) :
    (inner.accepts terminal = true → (inner.within frame effects).accepts terminal = true) ∧
      ((inner.within frame effects).accepts terminal = true → inner.accepts terminal = true ∨
        inner.state = .operand ∧ inner.frames = [] ∧ terminal = .rightParen) := by
  obtain ⟨state, frames, done⟩ := inner
  cases state with
  | operand =>
    cases frames with
    | cons other frames => cases other <;> exact ⟨fun h => h, fun h => .inl h⟩
    | nil =>
      cases frame with
      | assignment => exact ⟨fun h => h, fun h => .inl h⟩
      | call =>
        simp only [within, accepts, List.nil_append, Bool.or_false, Bool.or_eq_true,
          decide_eq_true_eq, true_and]
        exact ⟨.inl, id⟩
      | _ => cases hframe
  | _ => exact ⟨fun h => h, fun h => .inl h⟩

theorem step_within {inner next : Config} (hframe : frame.isEffect = true)
    (hstate : inner.state.isEffect = false)
    (hframes : ∀ other ∈ inner.frames, other.isEffect = false)
    (hadmits : (inner.within frame effects).Admits token)
    (hstep : (inner.within frame effects).step token = some next) :
    (∃ next', inner.Admits token ∧ inner.step token = some next' ∧
      next = next'.within frame effects) ∨
    (∃ e p, inner.state = .ended e ∧ settle 0 e inner.frames = (p, []) ∧
      finish p frame effects token = some next) ∨
    inner.state = .operand ∧ inner.frames = [] ∧ close frame effects token = some next := by
  have hadmitted {next' : Config} (hnext : inner.step token = some next') :
      inner.Admits token := by
    refine ⟨?_, fun hname keyword heq => ?_⟩
    . rcases (accepts_within hframe inner _).2 hadmits.accepts with h | ⟨hoperand, hnil, hparen⟩
      . exact h
      . rw [step, hoperand, stepOperand, hnil, hparen] at hnext
        cases hnext
    . have hword := hadmits.keyword hname keyword heq
      rw [Bool.eq_false_iff] at hword ⊢
      exact fun h => hword ((accepts_within hframe inner _).1 h)
  obtain ⟨state, frames, done⟩ := inner
  cases state with
  | operand =>
    have hwithin := hstep
    rw [step, within] at hwithin
    dsimp only at hwithin
    rw [stepOperand_within done hframe hframes] at hwithin
    split at hwithin
    . next next' hnext =>
      cases hwithin
      exact .inl ⟨next', hadmitted hnext, hnext, rfl⟩
    . split at hwithin
      . next hnil => exact .inr (.inr ⟨rfl, hnil, hwithin⟩)
      . cases hwithin
  | ended e =>
    have hwithin := hstep
    rw [step, within] at hwithin
    dsimp only at hwithin
    rw [stepEnded_within done hframe hframes] at hwithin
    split at hwithin
    . next next' hnext =>
      cases hwithin
      exact .inl ⟨next', hadmitted hnext, hnext, rfl⟩
    . split at hwithin
      . next p hsettle => exact .inr (.inl ⟨e, p, rfl, hsettle, hwithin⟩)
      . cases hwithin
  | effect | effectName => cases hstate
  | _ =>
    have hwithin := (stepBetween_within hstate).symm.trans hstep
    obtain ⟨next', hnext, heq⟩ := Option.map_eq_some_iff.mp hwithin
    exact .inl ⟨next', hadmitted hnext, hnext, heq.symm⟩

end Within

/--
The tokens that have been read since the last complete effect lead to a configuration.
-/
inductive HoldsClause : Config → List Token → Prop where
  | effect {effects : List Clause} : HoldsClause ⟨.effect, [], effects⟩ []
  | name {token : Token} {effects : List Clause} :
      token.terminal = .name → HoldsClause ⟨.effectName token, [], effects⟩ [token]
  | within {inner : Config} {frame : Frame} {effects : List Clause} {is : List Item}
      {ts : List Token} :
      frame.OpensEffect is → inner.Holds ts →
      HoldsClause (inner.within frame effects) (is.map Item.token ++ ts)

def HoldsAction (config : Config) (ts : List Token) : Prop :=
  ∃ is us, SpellsAction config.effects.reverse is ∧ config.HoldsClause us ∧
    is.map Item.token ++ us = ts

section Action

variable {config next inner : Config} {frame : Frame} {effects : List Clause} {p : Phrase}
  {is js : List Item} {ts : List Token} {token : Token} {rest : Text}

theorem holdsAction_action : Config.action.HoldsAction [] :=
  ⟨[], [], .nil, .effect, rfl⟩

theorem holdsAction_effect (h : SpellsAction effects.reverse is) :
    HoldsAction ⟨.effect, [], effects⟩ (is.map Item.token) :=
  ⟨is, [], h, .effect, List.append_nil _⟩

theorem holdsAction_opened (h : SpellsAction effects.reverse is) (hopens : frame.OpensEffect js) :
    HoldsAction ⟨.operand, [frame], effects⟩ ((is ++ js).map Item.token) := by
  have hclause : HoldsClause ⟨.operand, [frame], effects⟩ _ := .within hopens holds_expression
  rw [List.append_nil] at hclause
  refine ⟨is, _, h, hclause, ?_⟩
  rw [List.map_append]

theorem spellsAction_snoc {clause : Clause} (h : SpellsAction effects.reverse is)
    (hclause : SpellsClause clause js) :
    SpellsAction (clause :: effects).reverse (is ++ js) := by
  rw [List.reverse_cons]
  exact h.snoc hclause

theorem holdsAction_close (h : SpellsAction effects.reverse is) (hopens : frame.OpensEffect js)
    (hfits : token.lexeme.Fits rest) (hclose : close frame effects token = some next) :
    next.HoldsAction ((is ++ js).map Item.token ++ [token]) := by
  unfold close at hclose
  split at hclose
  . next name args hterminal =>
    cases hclose
    cases hopens with
    | call hname hleft hargs =>
      have hright : token.lexeme = .rightParen :=
        Token.lexeme_eq_of_terminal hfits (by decide) hterminal
      have hholds := holdsAction_effect
        (spellsAction_snoc h (.call hname hleft (hargs.close hright)))
      simpa using hholds
  . cases hclose

theorem lexeme_eq_semicolon (hfits : token.lexeme.Fits rest)
    (hterminal : token.terminal = .semicolon) : token.lexeme = .semicolon := by
  rw [Token.lexeme_eq_of_fits hfits (by rw [hterminal]; decide) (by rw [hterminal]; rfl), hterminal]
  rfl

theorem holdsAction_finish (h : SpellsAction effects.reverse is) (hopens : frame.OpensEffect js)
    {ks : List Item} (hspells : Spells (.phrase 0 p) ks) (hfits : token.lexeme.Fits rest)
    (hfinish : finish p frame effects token = some next) :
    next.HoldsAction ((is ++ (js ++ ks)).map Item.token ++ [token]) := by
  unfold finish at hfinish
  split at hfinish
  . next name args hterminal =>
    cases hfinish
    cases hopens with
    | call hname hleft hargs =>
      have hcomma : token.lexeme = .comma :=
        Token.lexeme_eq_of_terminal hfits (by decide) hterminal
      have hholds := holdsAction_opened h (.call hname hleft (hargs.more hspells hcomma))
      simpa using hholds
  . next name args hterminal =>
    cases hfinish
    cases hopens with
    | call hname hleft hargs =>
      have hright : token.lexeme = .rightParen :=
        Token.lexeme_eq_of_terminal hfits (by decide) hterminal
      have hholds := holdsAction_effect
        (spellsAction_snoc h (.call hname hleft (hargs.last hspells hright)))
      simpa using hholds
  . next target operator hterminal =>
    cases hfinish
    cases hopens with
    | assignment htarget hoperator =>
      have haction := spellsAction_snoc h (.assignment htarget hoperator hspells)
      have hholds := holdsAction_effect
        (haction.snoc_semicolon (lexeme_eq_semicolon hfits hterminal))
      simpa using hholds
  . next target operator hterminal =>
    cases hfinish
    cases hopens with
    | assignment htarget hoperator =>
      have haction := spellsAction_snoc h (.assignment htarget hoperator hspells)
      exact ⟨_, _, haction, .name hterminal, by simp⟩
  . cases hfinish

theorem holdsAction_stepEffect (h : SpellsAction effects.reverse is)
    (hfits : token.lexeme.Fits rest)
    (hstep : stepBetween ⟨.effect, [], effects⟩ token = some next) :
    next.HoldsAction (is.map Item.token ++ [token]) := by
  cases hterminal : token.terminal with
  | name =>
    simp only [stepBetween, hterminal, Option.some.injEq] at hstep
    rw [← hstep]
    exact ⟨is, [token], h, .name hterminal, rfl⟩
  | semicolon =>
    simp only [stepBetween, hterminal, Option.some.injEq] at hstep
    rw [← hstep]
    have hholds := holdsAction_effect (h.snoc_semicolon (lexeme_eq_semicolon hfits hterminal))
    simpa using hholds
  | _ => simp [stepBetween, hterminal] at hstep

theorem holdsAction_stepName {name : Token} (h : SpellsAction effects.reverse is)
    (hname : name.terminal = .name) (hfits : token.lexeme.Fits rest)
    (hstep : stepBetween ⟨.effectName name, [], effects⟩ token = some next) :
    next.HoldsAction (is.map Item.token ++ [name] ++ [token]) := by
  cases hterminal : token.terminal with
  | assign =>
    simp only [stepBetween, hterminal, Option.some.injEq] at hstep
    rw [← hstep]
    have hholds := holdsAction_opened h (.assignment hname hterminal)
    simpa using hholds
  | leftParen =>
    simp only [stepBetween, hterminal, Option.some.injEq] at hstep
    rw [← hstep]
    have hleft : token.lexeme = .leftParen :=
      Token.lexeme_eq_of_terminal hfits (by decide) hterminal
    have hholds := holdsAction_opened h (.call hname hleft .nil)
    simpa using hholds
  | _ => simp [stepBetween, hterminal] at hstep

theorem eq_nil_of_operand {us : List Token} (h : inner.Holds us) (hstate : inner.state = .operand)
    (hframes : inner.frames = []) : us = [] := by
  obtain ⟨opened, held, hopened, hheld, rfl⟩ := h
  rw [hframes] at hopened
  rw [hstate] at hheld
  cases hopened
  cases hheld
  rfl

theorem HoldsAction.step {config : Config} (h : config.HoldsAction ts)
    (hadmits : config.Admits token) (hfits : token.lexeme.Fits rest)
    (hstep : config.step token = some next) : next.HoldsAction (ts ++ [token]) := by
  obtain ⟨is, us, haction, hclause, rfl⟩ := h
  cases hclause with
  | effect =>
    rw [List.append_nil]
    exact holdsAction_stepEffect haction hfits hstep
  | name hname => exact holdsAction_stepName haction hname hfits hstep
  | @within inner frame effects js us hopens hinner =>
    have hheld := hinner
    obtain ⟨opened, held, hopened, hstate, -⟩ := hheld
    rcases step_within hopens.isEffect hstate.isEffect_eq_false hopened.isEffect_eq_false hadmits
      hstep with ⟨next', hadmits', hstep', rfl⟩ | ⟨e, p, hended, hsettle, hfinish⟩ |
        ⟨hoperand, hnil, hclose⟩
    . have hnext := hinner.step hadmits' hfits hstep'
      refine ⟨is, _, haction, .within hopens hnext, ?_⟩
      simp only [List.append_assoc]
    . obtain ⟨ks, hspells, rfl⟩ := hinner.exists_spells hended hsettle
      have hholds := holdsAction_finish haction hopens hspells hfits hfinish
      simpa using hholds
    . obtain rfl := eq_nil_of_operand hinner hoperand hnil
      have hholds := holdsAction_close haction hopens hfits hclose
      simpa using hholds

theorem HoldsAction.steps {config last : Config} {us : List Token} (h : config.HoldsAction ts)
    (hsteps : Steps config us last) (hfits : ∀ token ∈ us, ∃ rest, token.lexeme.Fits rest) :
    last.HoldsAction (ts ++ us) := by
  induction hsteps generalizing ts with
  | refl =>
    rw [List.append_nil]
    exact h
  | step hadmits hstep _ ih =>
    obtain ⟨⟨rest, htoken⟩, htokens⟩ := List.forall_mem_cons.mp hfits
    have hrest := ih (h.step hadmits htoken hstep) htokens
    rwa [List.append_assoc, List.singleton_append] at hrest

end Action

end Config

theorem exists_spells_of_readAction {t : Text} {clauses : List Clause}
    (h : Clause.read t = .ok clauses) :
    ∃ is, Layout .start t (is.map Item.token) ∧ SpellsAction clauses is := by
  unfold Clause.read at h
  obtain ⟨⟨config, place⟩, hrun, h⟩ := Traversal.bind_eq_ok_iff.mp h
  obtain ⟨ts, hlayout, hsteps⟩ := Config.layout_of_run (Nat.le_refl _) hrun
  obtain ⟨is, us, haction, hclause, heq⟩ :=
    Config.holdsAction_action.steps hsteps hlayout.fits
  rw [List.nil_append] at heq
  rw [← heq] at hlayout
  cases hclause with
  | effect =>
    cases h
    exact ⟨is, by simpa using hlayout, haction⟩
  | name => cases h
  | @within inner frame effects js us hopens hinner =>
    dsimp only [Config.within] at h
    split at h
    . next hstate =>
      obtain ⟨_, _, -, hheld, -⟩ := hinner
      rw [hstate] at hheld
      cases hheld
    . next e hstate =>
      rw [Config.settle_within hopens.isEffect] at h
      split at h
      . next p target operator hsettle =>
        cases h
        -- The assignment is the only frame, so all that is inside of it is settled.
        obtain ⟨hp, hframes⟩ := Prod.mk.inj hsettle
        obtain ⟨hnil, hframe⟩ := List.append_inj' (hframes.trans (List.nil_append _).symm) rfl
        cases hframe
        cases hopens with
        | assignment htarget hoperator =>
          obtain ⟨ks, hspells, rfl⟩ := hinner.exists_spells hstate (Prod.ext hp hnil)
          refine ⟨_, ?_, Config.spellsAction_snoc haction
            (.assignment htarget hoperator hspells)⟩
          simpa using hlayout
      . cases h
    . cases h

end Expression

end PageBinding
