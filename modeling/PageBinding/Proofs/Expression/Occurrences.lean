import PageBinding.Proofs.Expression.Splice
import PageBinding.Proofs.Expression.Tokens

/-!
This module contains where the identifiers of a text stand: the text between the offsets of each is
its name, and each ends before the next one starts. The parser keeps names in the order in which it
reads them. It can drop one, such as the name of a called effect, but it never moves one.
-/

namespace PageBinding

namespace Expression

mutual

@[simp]
def Phrase.names : Phrase → List Token
  | .number _ | .string _ | .bool _ | .null => []
  | .name token => [token]
  | .array items => namesOfList items
  | .object entries => namesOfEntries entries
  | .unary _ operand => operand.names
  | .binary _ left right => left.names ++ right.names
  | .conditional condition consequent alternate =>
    condition.names ++ consequent.names ++ alternate.names
  | .member object _ _ => object.names
  | .index object key _ => object.names ++ key.names

@[simp]
def namesOfList : List Phrase → List Token
  | [] => []
  | p :: rest => p.names ++ namesOfList rest

@[simp]
def PhraseEntry.names : PhraseEntry → List Token
  | .keyed _ value => value.names
  | .computed key value => key.names ++ value.names
  | .shorthand name => [name]

@[simp]
def namesOfEntries : List PhraseEntry → List Token
  | [] => []
  | entry :: rest => entry.names ++ namesOfEntries rest

end

@[simp]
def Clause.names : Clause → List Token
  | .assignment target _ value => target :: value.names
  | .call _ args => namesOfList args

@[simp]
def Frame.names : Frame → List Token
  | .unary _ | .group => []
  | .binary _ left => left.names
  | .test condition => condition.names
  | .alternate condition consequent => condition.names ++ consequent.names
  | .array items | .call _ items => namesOfList items.reverse
  | .index object _ => object.names
  | .value entries _ | .computedKey entries => namesOfEntries entries.reverse
  | .computedValue entries key => namesOfEntries entries.reverse ++ key.names
  | .assignment target _ => [target]

/--
The names in what the parser has read last. A name at the start of an effect or of an entry counts
before it is known whether it becomes an identifier.
-/
@[simp]
def State.names : State → List Token
  | .operand | .effect => []
  | .ended e => e.names
  | .member object _ => object.names
  | .entry entries | .entryKey entries _ => namesOfEntries entries.reverse
  | .entryName entries name => namesOfEntries entries.reverse ++ [name]
  | .entryBracket entries key => namesOfEntries entries.reverse ++ key.names
  | .effectName name => [name]

@[simp]
def Config.names (config : Config) : List Token :=
  config.effects.reverse.flatMap Clause.names ++
    (config.frames.reverse.flatMap Frame.names ++ config.state.names)

@[simp]
def Frame.isEffect : Frame → Bool
  | .assignment .. | .call .. => true
  | _ => false

@[simp]
def State.isEffect : State → Bool
  | .effect | .effectName _ => true
  | _ => false

/--
The names that the parser keeps are some of those that it has read, in the same order. Effects stand
inside of nothing else, so what is complete of an action comes before all that is not.
-/
structure Config.Keeps (config : Config) (ts : List Token) : Prop where
  names : config.names.Sublist ts
  state : config.state.isEffect = true → config.frames = []
  frames : config.frames.Pairwise fun frame _ => frame.isEffect = false

@[simp]
theorem namesOfList_append (ps qs : List Phrase) :
    namesOfList (ps ++ qs) = namesOfList ps ++ namesOfList qs := by
  induction ps with
  | nil => rfl
  | cons p ps ih => rw [List.cons_append, namesOfList, namesOfList, ih, List.append_assoc]

@[simp]
theorem namesOfEntries_append (ps qs : List PhraseEntry) :
    namesOfEntries (ps ++ qs) = namesOfEntries ps ++ namesOfEntries qs := by
  induction ps with
  | nil => rfl
  | cons p ps ih => rw [List.cons_append, namesOfEntries, namesOfEntries, ih, List.append_assoc]

namespace Config

variable {config next : Config} {token : Token} {ts : List Token}

theorem names_settle (level : Nat) (e : Phrase) (frames : List Frame) :
    (settle level e frames).2.reverse.flatMap Frame.names ++ (settle level e frames).1.names =
      frames.reverse.flatMap Frame.names ++ e.names := by
  fun_induction settle level e frames with
  | case1 e op rest ih => simp [ih]
  | case2 e op left rest hle ih => simp [ih]
  | case3 e op left rest hlt => rfl
  | case4 e test consequent rest hlevel ih => simp [ih]
  | case5 e test consequent rest hne => rfl
  | case6 e frames => rfl

theorem eq_nil_of_isEffect {frame : Frame} {rest : List Frame}
    (h : (frame :: rest).Pairwise fun frame _ => frame.isEffect = false)
    (hframe : frame.isEffect = true) : rest = [] := by
  rw [List.eq_nil_iff_forall_not_mem]
  intro other hmem
  rw [(List.pairwise_cons.mp h).1 other hmem] at hframe
  cases hframe

theorem Keeps.of_names (h : config.Keeps ts) (hnames : next.names.Sublist (config.names ++ [token]))
    (hstate : next.state.isEffect = true → next.frames = [])
    (hframes : next.frames.Pairwise fun frame _ => frame.isEffect = false) :
    next.Keeps (ts ++ [token]) :=
  ⟨hnames.trans (h.names.append (.refl [token])), hstate, hframes⟩

theorem Keeps.stepOperand {frames : List Frame} {effects : List Clause}
    (h : Keeps ⟨.operand, frames, effects⟩ ts)
    (hstep : Config.stepOperand ⟨.operand, frames, effects⟩ token = some next) :
    next.Keeps (ts ++ [token]) := by
  have hframes := h.frames
  unfold Config.stepOperand at hstep
  split at hstep
  case h_7 | h_8 | h_9 =>
    obtain ⟨op, -, heq⟩ := Option.bind_eq_some_iff.mp hstep
    cases heq
    exact h.of_names (by simp) nofun (by simpa using hframes)
  all_goals cases hstep
  case h_13 heq =>
    cases heq
    exact h.of_names (by simp) nofun (by simpa using hframes.tail)
  case h_14 heq =>
    cases heq
    obtain rfl := eq_nil_of_isEffect hframes rfl
    exact h.of_names (by simp) (fun _ => rfl) .nil
  all_goals exact h.of_names (by simp) nofun (by simpa using hframes)

theorem pairwise_settle {r : Frame → Frame → Prop} (level : Nat) (e : Phrase) {frames : List Frame}
    (h : frames.Pairwise r) : (settle level e frames).2.Pairwise r := by
  fun_induction settle level e frames with
  | case1 e op rest ih => exact ih h.tail
  | case2 e op left rest hle ih => exact ih h.tail
  | case3 e op left rest hlt => exact h
  | case4 e test consequent rest hlevel ih => exact ih h.tail
  | case5 e test consequent rest hne => exact h
  | case6 e frames => exact h

theorem Keeps.settle {e : Phrase} {frames : List Frame} {effects : List Clause} (level : Nat)
    (h : Keeps ⟨.ended e, frames, effects⟩ ts) :
    Keeps ⟨.ended (settle level e frames).1, (settle level e frames).2, effects⟩ ts := by
  refine ⟨?_, nofun, pairwise_settle level e h.frames⟩
  rw [Config.names, State.names, names_settle]
  exact h.names

theorem Keeps.stepSettled {e p : Phrase} {frames : List Frame} {effects : List Clause}
    (h : Keeps ⟨.ended e, frames, effects⟩ ts)
    (hstep : Config.stepSettled ⟨.ended p, frames, effects⟩ e token = some next) :
    next.Keeps (ts ++ [token]) := by
  have hframes := h.frames
  unfold Config.stepSettled at hstep
  dsimp only at hstep hframes
  split at hstep
  all_goals cases hstep
  -- An effect that the operand completes is the outermost frame.
  case h_10 | h_13 | h_14 =>
    obtain rfl := eq_nil_of_isEffect hframes rfl
    exact h.of_names (by simp) (fun _ => rfl) .nil
  case h_3 =>
    obtain rfl := eq_nil_of_isEffect hframes rfl
    exact h.of_names (by simp) nofun (List.pairwise_singleton _ _)
  all_goals exact h.of_names (by simp) nofun (by simpa using hframes.tail)

theorem Keeps.stepEnded {e : Phrase} {frames : List Frame} {effects : List Clause}
    (h : Keeps ⟨.ended e, frames, effects⟩ ts)
    (hstep : Config.stepEnded ⟨.ended e, frames, effects⟩ e token = some next) :
    next.Keeps (ts ++ [token]) := by
  unfold Config.stepEnded at hstep
  split at hstep
  . next op _ =>
    have hsettled := h.settle op.level
    cases hstep
    exact hsettled.of_names (by simp) nofun (by simpa using hsettled.frames)
  . split at hstep
    . cases hstep
      exact h.of_names (by simp) nofun h.frames
    . cases hstep
      exact h.of_names (by simp) nofun h.frames
    . cases hstep
      exact h.of_names (by simp) nofun (by simpa using h.frames)
    . have hsettled := h.settle 1
      cases hstep
      exact hsettled.of_names (by simp) nofun (by simpa using hsettled.frames)
    . exact (h.settle 0).stepSettled hstep

theorem Keeps.stepBetween (h : config.Keeps ts) (hstep : config.stepBetween token = some next) :
    next.Keeps (ts ++ [token]) := by
  obtain ⟨state, frames, effects⟩ := config
  have hstate := h.state
  have hframes := h.frames
  unfold Config.stepBetween at hstep
  dsimp only at hstep hstate hframes
  split at hstep
  all_goals cases hstep
  case h_17 | h_18 =>
    obtain rfl := hstate rfl
    exact h.of_names (by simp) nofun (List.pairwise_singleton _ _)
  case h_15 | h_16 => exact h.of_names (by simp) hstate hframes
  all_goals exact h.of_names (by simp) nofun (by simpa using hframes)

theorem Keeps.step (h : config.Keeps ts) (hstep : config.step token = some next) :
    next.Keeps (ts ++ [token]) := by
  obtain ⟨state, frames, effects⟩ := config
  unfold Config.step at hstep
  split at hstep
  . next hstate =>
    cases hstate
    exact h.stepOperand hstep
  . next hstate =>
    cases hstate
    exact h.stepEnded hstep
  . exact h.stepBetween hstep

theorem Keeps.steps {us : List Token} (h : config.Keeps ts) (hsteps : Steps config us next) :
    next.Keeps (ts ++ us) := by
  induction hsteps generalizing ts with
  | refl config =>
    rw [List.append_nil]
    exact h
  | step _ hstep _ ih =>
    have hrest := ih (h.step hstep)
    rwa [List.append_assoc, List.singleton_append] at hrest

end Config

theorem names_of_read {t : Text} {p : Phrase} (h : Phrase.read t = .ok p) :
    ∃ ts, Layout .start t ts ∧ p.names.Sublist ts := by
  obtain ⟨ts, e, frames, effects, hlayout, hsteps, hsettle⟩ := read_eq_ok_iff.mp h
  have hstart : Config.expression.Keeps [] := ⟨.slnil, nofun, .nil⟩
  have hlast := ((hstart.steps hsteps).settle 0).names
  rw [hsettle] at hlast
  exact ⟨ts, hlayout, (by simp : List.Sublist _ _).trans hlast⟩

theorem names_of_readAction {t : Text} {clauses : List Clause} (h : Clause.read t = .ok clauses) :
    ∃ ts, Layout .start t ts ∧ (clauses.flatMap Clause.names).Sublist ts := by
  unfold Clause.read at h
  obtain ⟨⟨⟨state, frames, effects⟩, place⟩, hrun, h⟩ := Traversal.bind_eq_ok_iff.mp h
  obtain ⟨ts, hlayout, hsteps⟩ := Config.layout_of_run (Nat.le_refl _) hrun
  have hstart : Config.action.Keeps [] := ⟨.slnil, fun _ => rfl, .nil⟩
  have hlast := hstart.steps hsteps
  refine ⟨ts, hlayout, ?_⟩
  cases state with
  | effect =>
    cases h
    exact (by simp : List.Sublist _ _).trans hlast.names
  | ended e =>
    have hsettled := (hlast.settle 0).names
    dsimp only at h
    split at h
    . next e' target operator hsettle =>
      cases h
      rw [hsettle] at hsettled
      exact (by simp : List.Sublist _ _).trans hsettled
    . cases h
  | _ => cases h

def Identifier.span (id : Identifier) : Text × Nat × Nat :=
  (id.name, id.start, id.stop)

def Token.span (token : Token) : Text × Nat × Nat :=
  (token.text, token.start.offset, token.stop)

theorem Token.span_of_identifier {token : Token} {shorthand : Bool} {id : Identifier}
    (h : token.identifier shorthand = .ok id) : id.span = token.span := by
  obtain ⟨-, rfl⟩ := Token.identifier_eq_ok_iff.mp h
  rfl

mutual

theorem spans_of_resolve {room : Nat} {p : Phrase} {e : Expr} (h : p.resolve room = .ok e) :
    e.identifiers.map Identifier.span = p.names.map Token.span := by
  match p with
  | .number _ | .string _ | .bool _ | .null =>
    cases Phrase.becomes_of_resolve h
    rfl
  | .name token =>
    cases Phrase.becomes_of_resolve h with
    | name hid => exact congrArg (fun span => [span]) (Token.span_of_identifier hid)
  | .array ps =>
    cases Phrase.becomes_of_resolve h with
    | array hes => exact spansOfList_of_resolve hes
  | .object ps =>
    cases Phrase.becomes_of_resolve h with
    | object hes => exact spansOfEntries_of_resolve hes
  | .unary op p =>
    cases Phrase.becomes_of_resolve h with
    | unary ha => simp only [Expr.identifiers, Phrase.names, spans_of_resolve ha]
  | .binary op p q =>
    cases Phrase.becomes_of_resolve h with
    | binary ha hb =>
      simp only [Expr.identifiers, Phrase.names, List.map_append, spans_of_resolve ha,
        spans_of_resolve hb]
  | .conditional p q r =>
    cases Phrase.becomes_of_resolve h with
    | conditional ha hb hc =>
      simp only [Expr.identifiers, Phrase.names, List.map_append, spans_of_resolve ha,
        spans_of_resolve hb, spans_of_resolve hc]
  | .member p name optional =>
    cases Phrase.becomes_of_resolve h with
    | member ha => simp only [Expr.identifiers, Phrase.names, spans_of_resolve ha]
  | .index p q optional =>
    cases Phrase.becomes_of_resolve h with
    | index ha hb =>
      simp only [Expr.identifiers, Phrase.names, List.map_append, spans_of_resolve ha,
        spans_of_resolve hb]

theorem spansOfList_of_resolve {room : Nat} {ps : List Phrase} {es : List Expr}
    (h : resolveList room ps = .ok es) :
    (identifiersOfList es).map Identifier.span = (namesOfList ps).map Token.span := by
  match ps with
  | [] =>
    cases h
    rfl
  | p :: ps =>
    obtain ⟨a, as, ha, has, rfl⟩ := exists_of_resolveList h
    simp only [identifiersOfList, namesOfList, List.map_append, spans_of_resolve ha,
      spansOfList_of_resolve has]

theorem spansOfEntry_of_resolve {room : Nat} {p : PhraseEntry} {entry : Entry}
    (h : p.resolve room = .ok entry) :
    (identifiersOfEntry entry).map Identifier.span = p.names.map Token.span := by
  match p with
  | .keyed token p =>
    cases PhraseEntry.becomes_of_resolve h with
    | keyed hkey ha => exact spans_of_resolve ha
  | .computed p q =>
    cases PhraseEntry.becomes_of_resolve h with
    | computed ha hb =>
      simp only [identifiersOfEntry, PhraseEntry.names, List.map_append, spans_of_resolve ha,
        spans_of_resolve hb]
  | .shorthand name =>
    cases PhraseEntry.becomes_of_resolve h with
    | shorthand hid => exact congrArg (fun span => [span]) (Token.span_of_identifier hid)

theorem spansOfEntries_of_resolve {room : Nat} {ps : List PhraseEntry} {es : List Entry}
    (h : resolveEntries room ps = .ok es) :
    (identifiersOfEntries es).map Identifier.span = (namesOfEntries ps).map Token.span := by
  match ps with
  | [] =>
    cases h
    rfl
  | p :: ps =>
    obtain ⟨a, as, ha, has, rfl⟩ := exists_of_resolveEntries h
    simp only [identifiersOfEntries, namesOfEntries, List.map_append, spansOfEntry_of_resolve ha,
      spansOfEntries_of_resolve has]

end

theorem spansOfClause_of_resolve [Limits] {clause : Clause} {effect : Effect}
    (h : clause.resolve = .ok effect) :
    effect.identifiers.map Identifier.span = clause.names.map Token.span := by
  cases clause with
  | assignment target operator value =>
    simp only [Clause.resolve, Traversal.bind_eq_ok_iff, pure, Except.pure, Except.ok.injEq] at h
    obtain ⟨a, ha, id, hid, rfl⟩ := h
    simp only [Effect.identifiers, Clause.names, List.map_cons, Token.span_of_identifier hid,
      spans_of_resolve ha]
  | call name args =>
    simp only [Clause.resolve, Traversal.bind_eq_ok_iff, pure, Except.pure, Except.ok.injEq] at h
    obtain ⟨as, has, rfl⟩ := h
    exact spansOfList_of_resolve has

theorem spansOfEffects_of_resolve [Limits] {clauses : List Clause} {effects : List Effect}
    (h : clauses.mapM Clause.resolve = .ok effects) :
    (identifiersOfEffects effects).map Identifier.span =
      (clauses.flatMap Clause.names).map Token.span := by
  induction clauses generalizing effects with
  | nil =>
    cases h
    rfl
  | cons clause clauses ih =>
    obtain ⟨effect, rest, heffect, hrest, rfl⟩ := Traversal.mapM_cons_eq_ok_iff.mp h
    simp only [identifiersOfEffects] at ih
    simp only [identifiersOfEffects, List.flatMap_cons, List.map_append, ih hrest,
      spansOfClause_of_resolve heffect]

structure Placed (t : Text) (ids : List Identifier) : Prop where
  bounds : ∀ id ∈ ids, id.start < id.stop ∧ id.stop ≤ t.length
  slice : ∀ id ∈ ids, (t.take id.stop).drop id.start = id.name
  ordered : ids.Pairwise fun id other => id.stop ≤ other.start

namespace Layout

variable {pos : Position} {t : Text} {ts : List Token}

theorem split (h : Layout pos t ts) : ∀ token ∈ ts, token.text ≠ [] ∧
    ∃ before after, t = before ++ token.text ++ after ∧
      token.start.offset = pos.offset + before.length := by
  induction h with
  | nil => exact nofun
  | @gap pos g rest ts hgap hlayout ih =>
    intro token hmem
    obtain ⟨hne, before, after, rfl, hoffset⟩ := ih token hmem
    rw [Position.advance_offset] at hoffset
    refine ⟨hne, g ++ before, after, by simp only [List.append_assoc], ?_⟩
    rw [hoffset, List.length_append, Nat.add_assoc]
  | @token first rest ts hfits hlayout ih =>
    rw [List.forall_mem_cons]
    refine ⟨⟨hfits.ne_nil, [], rest, rfl, rfl⟩, fun token hmem => ?_⟩
    obtain ⟨hne, before, after, rfl, hoffset⟩ := ih token hmem
    rw [Position.advance_offset] at hoffset
    refine ⟨hne, first.text ++ before, after, by simp only [List.append_assoc], ?_⟩
    rw [hoffset, List.length_append, Nat.add_assoc]

theorem ordered (h : Layout pos t ts) :
    ts.Pairwise fun token other => token.stop ≤ other.start.offset := by
  induction h with
  | nil => exact .nil
  | gap _ _ ih => exact ih
  | token _ hlayout ih =>
    refine .cons (fun other hmem => ?_) ih
    have hle := hlayout.offset_le other hmem
    rwa [Position.advance_offset] at hle

theorem slice (h : Layout .start t ts) : ∀ token ∈ ts,
    token.start.offset < token.stop ∧ token.stop ≤ t.length ∧
      (t.take token.stop).drop token.start.offset = token.text := by
  intro token hmem
  obtain ⟨hne, before, after, rfl, hoffset⟩ := h.split token hmem
  have hstart : token.start.offset = before.length := hoffset.trans (Nat.zero_add _)
  have hstop : token.stop = (before ++ token.text).length := by
    rw [Token.stop, hstart, List.length_append]
  refine ⟨Nat.lt_add_of_pos_right (List.length_pos_iff.mpr hne), ?_, ?_⟩
  . rw [hstop]
    exact (List.prefix_append (before ++ token.text) after).length_le
  . rw [hstop, hstart, List.take_left, List.drop_left]

theorem placed {names : List Token} {ids : List Identifier} (h : Layout .start t ts)
    (hnames : names.Sublist ts) (hspans : ids.map Identifier.span = names.map Token.span) :
    Placed t ids := by
  have hids : ∀ id ∈ ids, id.start < id.stop ∧ id.stop ≤ t.length ∧
      (t.take id.stop).drop id.start = id.name := by
    intro id hid
    obtain ⟨token, htoken, hspan⟩ := List.mem_map.mp (hspans ▸ List.mem_map_of_mem hid)
    cases id
    cases hspan
    exact h.slice token (hnames.subset htoken)
  refine ⟨fun id hid => ⟨(hids id hid).1, (hids id hid).2.1⟩, fun id hid => (hids id hid).2.2, ?_⟩
  have hordered : (names.map Token.span).Pairwise fun span other => span.2.2 ≤ other.2.1 :=
    List.pairwise_map.mpr (h.ordered.sublist hnames)
  rw [← hspans] at hordered
  exact List.pairwise_map.mp hordered

end Layout

theorem placed_of_parse [Limits] {t : Text} {e : Expr} (h : parse t = .ok e) :
    Placed t e.identifiers := by
  rw [parse, Traversal.bind_eq_ok_iff] at h
  obtain ⟨p, hread, hresolve⟩ := h
  obtain ⟨ts, hlayout, hnames⟩ := names_of_read hread
  exact hlayout.placed hnames (spans_of_resolve hresolve)

theorem placed_of_parseAction [Limits] {t : Text} {effects : List Effect}
    (h : parseAction t = .ok effects) :
    Placed t (identifiersOfEffects effects) := by
  rw [parseAction, Traversal.bind_eq_ok_iff] at h
  obtain ⟨clauses, hread, hresolve⟩ := h
  obtain ⟨ts, hlayout, hnames⟩ := names_of_readAction hread
  exact hlayout.placed hnames (spansOfEffects_of_resolve hresolve)

end Expression

end PageBinding
