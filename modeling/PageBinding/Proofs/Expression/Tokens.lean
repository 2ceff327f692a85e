import PageBinding.Proofs.Expression.Spelling

/-!
This module contains why every token that the parser keeps is a part of the text that it has read: a
step of the parser keeps nothing but tokens that it has kept before, and the new one.
-/

namespace PageBinding

namespace Expression

section All

variable (P : Token → Prop)

mutual

def Phrase.All : Phrase → Prop
  | .number token | .string token | .name token => P token
  | .bool _ | .null => True
  | .array items => AllOfList items
  | .object entries => AllOfEntries entries
  | .unary _ operand => operand.All
  | .binary _ left right => left.All ∧ right.All
  | .conditional condition consequent alternate =>
    condition.All ∧ consequent.All ∧ alternate.All
  | .member object _ _ => object.All
  | .index object key _ => object.All ∧ key.All

def AllOfList : List Phrase → Prop
  | [] => True
  | p :: rest => p.All ∧ AllOfList rest

def PhraseEntry.All : PhraseEntry → Prop
  | .keyed key value => P key ∧ value.All
  | .computed key value => key.All ∧ value.All
  | .shorthand name => P name

def AllOfEntries : List PhraseEntry → Prop
  | [] => True
  | entry :: rest => entry.All ∧ AllOfEntries rest

end

def Clause.All : Clause → Prop
  | .assignment target operator value => P target ∧ P operator ∧ value.All P
  | .call name args => P name ∧ ∀ p ∈ args, p.All P

def Frame.All : Frame → Prop
  | .unary _ | .group => True
  | .binary _ left => left.All P
  | .test condition => condition.All P
  | .alternate condition consequent => condition.All P ∧ consequent.All P
  | .array items => ∀ p ∈ items, p.All P
  | .index object _ => object.All P
  | .value entries key => (∀ entry ∈ entries, entry.All P) ∧ P key
  | .computedValue entries key => (∀ entry ∈ entries, entry.All P) ∧ key.All P
  | .computedKey entries => ∀ entry ∈ entries, entry.All P
  | .assignment target operator => P target ∧ P operator
  | .call name args => P name ∧ ∀ p ∈ args, p.All P

def State.All : State → Prop
  | .operand | .effect => True
  | .ended e => e.All P
  | .member object _ => object.All P
  | .entry entries => ∀ entry ∈ entries, entry.All P
  | .entryName entries token | .entryKey entries token =>
    (∀ entry ∈ entries, entry.All P) ∧ P token
  | .entryBracket entries key => (∀ entry ∈ entries, entry.All P) ∧ key.All P
  | .effectName name => P name

structure Config.All (config : Config) : Prop where
  state : config.state.All P
  frames : ∀ frame ∈ config.frames, frame.All P
  effects : ∀ clause ∈ config.effects, clause.All P

end All

variable {P : Token → Prop}

theorem all_array_reverse {ps : List Phrase} :
    (Phrase.array ps.reverse).All P ↔ ∀ p ∈ ps, p.All P := by
  have hlist (ps : List Phrase) : AllOfList P ps ↔ ∀ p ∈ ps, p.All P := by
    induction ps with
    | nil => simp [AllOfList]
    | cons p ps ih => simp [AllOfList, ih]
  rw [Phrase.All, hlist]
  simp

theorem all_object_reverse {entries : List PhraseEntry} :
    (Phrase.object entries.reverse).All P ↔ ∀ entry ∈ entries, entry.All P := by
  have hlist (entries : List PhraseEntry) :
      AllOfEntries P entries ↔ ∀ entry ∈ entries, entry.All P := by
    induction entries with
    | nil => simp [AllOfEntries]
    | cons entry entries ih => simp [AllOfEntries, ih]
  rw [Phrase.All, hlist]
  simp

theorem all_call_reverse {name : Token} {ps : List Phrase} (hname : P name)
    (h : ∀ p ∈ ps, p.All P) : (Clause.call name ps.reverse).All P :=
  ⟨hname, fun p hmem => h p (List.mem_reverse.mp hmem)⟩

namespace Config

variable {config next : Config} {token : Token}

theorem all_settle (level : Nat) {e : Phrase} {frames : List Frame} (he : e.All P)
    (hframes : ∀ frame ∈ frames, frame.All P) :
    (settle level e frames).1.All P ∧ ∀ frame ∈ (settle level e frames).2, frame.All P := by
  fun_induction settle level e frames with
  | case1 e op rest ih => exact ih he (List.forall_mem_cons.mp hframes).2
  | case2 e op left rest hle ih =>
    obtain ⟨hleft, hrest⟩ := List.forall_mem_cons.mp hframes
    exact ih ⟨hleft, he⟩ hrest
  | case3 e op left rest hlt => exact ⟨he, hframes⟩
  | case4 e test consequent rest hlevel ih =>
    obtain ⟨⟨htest, hconsequent⟩, hrest⟩ := List.forall_mem_cons.mp hframes
    exact ih ⟨htest, hconsequent, he⟩ hrest
  | case5 e test consequent rest hne => exact ⟨he, hframes⟩
  | case6 e frames => exact ⟨he, hframes⟩

theorem All.start {state : State} (hstate : state.All P) : Config.All P ⟨state, [], []⟩ :=
  ⟨hstate, fun _ hmem => absurd hmem List.not_mem_nil, fun _ hmem => absurd hmem List.not_mem_nil⟩

theorem All.push {frame : Frame} {frames : List Frame} {effects : List Clause}
    (hframe : frame.All P) (hframes : ∀ frame ∈ frames, frame.All P)
    (heffects : ∀ clause ∈ effects, clause.All P) :
    Config.All P ⟨.operand, frame :: frames, effects⟩ :=
  ⟨trivial, List.forall_mem_cons.mpr ⟨hframe, hframes⟩, heffects⟩

theorem All.stepOperand (h : config.All P) (htoken : P token)
    (hstep : config.stepOperand token = some next) : next.All P := by
  obtain ⟨state, frames, effects⟩ := config
  unfold Config.stepOperand at hstep
  split at hstep
  case h_7 | h_8 | h_9 =>
    obtain ⟨op, -, heq⟩ := Option.bind_eq_some_iff.mp hstep
    cases heq
    exact .push trivial h.frames h.effects
  all_goals cases hstep
  case h_1 | h_2 | h_3 => exact ⟨htoken, h.frames, h.effects⟩
  case h_4 | h_5 | h_6 => exact ⟨trivial, h.frames, h.effects⟩
  case h_10 => exact .push trivial h.frames h.effects
  case h_11 => exact .push (fun _ hmem => absurd hmem List.not_mem_nil) h.frames h.effects
  case h_12 => exact ⟨fun _ hmem => absurd hmem List.not_mem_nil, h.frames, h.effects⟩
  case h_13 heq =>
    obtain ⟨hitems, hrest⟩ := List.forall_mem_cons.mp (heq ▸ h.frames)
    exact ⟨all_array_reverse.mpr hitems, hrest, h.effects⟩
  case h_14 heq =>
    obtain ⟨⟨hname, hargs⟩, hrest⟩ := List.forall_mem_cons.mp (heq ▸ h.frames)
    exact ⟨trivial, hrest, List.forall_mem_cons.mpr ⟨all_call_reverse hname hargs, h.effects⟩⟩

theorem All.stepSettled {e : Phrase} (h : config.All P) (he : e.All P) (htoken : P token)
    (hstep : config.stepSettled e token = some next) : next.All P := by
  obtain ⟨state, frames, effects⟩ := config
  have hframes := h.frames
  unfold Config.stepSettled at hstep
  dsimp only at hstep hframes
  split at hstep
  all_goals cases hstep
  -- The operand belongs to the innermost frame that is left.
  all_goals obtain ⟨hframe, hrest⟩ := List.forall_mem_cons.mp hframes
  case h_1 => exact .push ⟨hframe, he⟩ hrest h.effects
  case h_2 => exact .push (List.forall_mem_cons.mpr ⟨he, hframe⟩) hrest h.effects
  case h_3 => exact .push ⟨hframe.1, List.forall_mem_cons.mpr ⟨he, hframe.2⟩⟩ hrest h.effects
  case h_4 | h_5 =>
    exact ⟨List.forall_mem_cons.mpr ⟨⟨hframe.2, he⟩, hframe.1⟩, hrest, h.effects⟩
  case h_6 =>
    exact ⟨all_array_reverse.mpr (List.forall_mem_cons.mpr ⟨he, hframe⟩), hrest, h.effects⟩
  case h_7 | h_8 => exact ⟨⟨hframe, he⟩, hrest, h.effects⟩
  case h_9 => exact ⟨he, hrest, h.effects⟩
  case h_10 =>
    have hcall := all_call_reverse hframe.1 (List.forall_mem_cons.mpr ⟨he, hframe.2⟩)
    exact ⟨trivial, hrest, List.forall_mem_cons.mpr ⟨hcall, h.effects⟩⟩
  case h_11 | h_12 =>
    refine ⟨all_object_reverse.mpr (List.forall_mem_cons.mpr ?_), hrest, h.effects⟩
    exact ⟨⟨hframe.2, he⟩, hframe.1⟩
  case h_13 =>
    exact ⟨trivial, hrest, List.forall_mem_cons.mpr ⟨⟨hframe.1, hframe.2, he⟩, h.effects⟩⟩
  case h_14 =>
    exact ⟨htoken, hrest, List.forall_mem_cons.mpr ⟨⟨hframe.1, hframe.2, he⟩, h.effects⟩⟩

theorem All.stepEnded {e : Phrase} (h : config.All P) (he : e.All P) (htoken : P token)
    (hstep : config.stepEnded e token = some next) : next.All P := by
  obtain ⟨state, frames, effects⟩ := config
  unfold Config.stepEnded at hstep
  split at hstep
  . next op _ =>
    obtain ⟨hleft, hrest⟩ := all_settle op.level he h.frames
    cases hstep
    exact .push hleft hrest h.effects
  . split at hstep
    . cases hstep
      exact ⟨he, h.frames, h.effects⟩
    . cases hstep
      exact ⟨he, h.frames, h.effects⟩
    . cases hstep
      exact .push he h.frames h.effects
    . obtain ⟨hcondition, hrest⟩ := all_settle 1 he h.frames
      cases hstep
      exact .push hcondition hrest h.effects
    . obtain ⟨he', hframes'⟩ := all_settle 0 he h.frames
      have hsettled : Config.All P ⟨state, (settle 0 e frames).2, effects⟩ :=
        ⟨h.state, hframes', h.effects⟩
      exact hsettled.stepSettled he' htoken hstep

theorem All.stepBetween (h : config.All P) (htoken : P token)
    (hstep : config.stepBetween token = some next) : next.All P := by
  obtain ⟨state, frames, effects⟩ := config
  obtain ⟨hstate, hframes, heffects⟩ := h
  unfold Config.stepBetween at hstep
  dsimp only at hstep hstate
  split at hstep
  all_goals cases hstep
  case h_1 | h_2 | h_16 => exact ⟨hstate, hframes, heffects⟩
  case h_3 | h_8 | h_10 | h_11 | h_14 => exact .push hstate hframes heffects
  case h_4 | h_5 | h_6 | h_7 => exact ⟨⟨hstate, htoken⟩, hframes, heffects⟩
  case h_9 => exact ⟨all_object_reverse.mpr hstate, hframes, heffects⟩
  case h_12 =>
    exact ⟨List.forall_mem_cons.mpr ⟨hstate.2, hstate.1⟩, hframes, heffects⟩
  case h_13 =>
    refine ⟨all_object_reverse.mpr (List.forall_mem_cons.mpr ?_), hframes, heffects⟩
    exact ⟨hstate.2, hstate.1⟩
  case h_15 => exact ⟨htoken, hframes, heffects⟩
  case h_17 => exact .push ⟨hstate, htoken⟩ hframes heffects
  case h_18 =>
    exact .push ⟨hstate, fun _ hmem => absurd hmem List.not_mem_nil⟩ hframes heffects

theorem All.step (h : config.All P) (htoken : P token) (hstep : config.step token = some next) :
    next.All P := by
  unfold Config.step at hstep
  split at hstep
  . exact h.stepOperand htoken hstep
  . next e hstate =>
    have he := h.state
    rw [hstate] at he
    exact h.stepEnded he htoken hstep
  . exact h.stepBetween htoken hstep

theorem All.steps {ts : List Token} (h : config.All P) (hsteps : Steps config ts next)
    (hts : ∀ token ∈ ts, P token) : next.All P := by
  induction hsteps with
  | refl config => exact h
  | step _ hstep _ ih =>
    exact ih (h.step (hts _ List.mem_cons_self) hstep) fun token hmem =>
      hts token (List.mem_cons_of_mem _ hmem)

end Config

theorem Layout.isInfix {pos : Position} {t : Text} {ts : List Token} (h : Layout pos t ts) :
    ∀ token ∈ ts, token.text <:+: t := by
  induction h with
  | nil => exact fun _ hmem => absurd hmem List.not_mem_nil
  | gap _ _ ih => exact fun token hmem => (ih token hmem).trans (List.suffix_append _ _).isInfix
  | token _ _ ih =>
    intro token hmem
    rcases List.mem_cons.mp hmem with rfl | hrest
    . exact (List.prefix_append _ _).isInfix
    . exact (ih token hrest).trans (List.suffix_append _ _).isInfix

theorem all_of_read {t : Text} {p : Phrase} (h : Phrase.read t = .ok p) :
    p.All fun token => token.text <:+: t := by
  obtain ⟨ts, e, frames, effects, hlayout, hsteps, hsettle⟩ := read_eq_ok_iff.mp h
  have hstart : Config.expression.All fun token => token.text <:+: t := .start trivial
  have hlast := hstart.steps hsteps hlayout.isInfix
  have hsettled := (Config.all_settle 0 hlast.state hlast.frames).1
  rwa [hsettle] at hsettled

theorem all_of_readAction {t : Text} {clauses : List Clause} (h : Clause.read t = .ok clauses) :
    ∀ clause ∈ clauses, clause.All fun token => token.text <:+: t := by
  unfold Clause.read at h
  obtain ⟨⟨⟨state, frames, effects⟩, place⟩, hrun, h⟩ := Traversal.bind_eq_ok_iff.mp h
  obtain ⟨ts, hlayout, hsteps⟩ := Config.layout_of_run (Nat.le_refl _) hrun
  have hstart : Config.action.All fun token => token.text <:+: t := .start trivial
  obtain ⟨hstate, hframes, heffects⟩ := hstart.steps hsteps hlayout.isInfix
  cases state with
  | effect =>
    cases h
    simpa using heffects
  | ended e =>
    obtain ⟨he, hsettled⟩ := Config.all_settle 0 hstate hframes
    dsimp only at h
    split at h
    . next e' target operator hsettle =>
      cases h
      rw [hsettle] at he hsettled
      obtain ⟨htarget, hoperator⟩ := hsettled _ List.mem_cons_self
      intro clause hmem
      rcases List.mem_cons.mp (List.mem_reverse.mp hmem) with rfl | hrest
      . exact ⟨htarget, hoperator, he⟩
      . exact heffects clause hrest
    . cases h
  | _ => cases h

end Expression

end PageBinding
