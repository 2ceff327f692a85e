import PageBinding.Proofs.Expression.Grammar
import PageBinding.Proofs.Expression.Layout

/-!
This module contains that the parser reads nothing but what the grammar has: the tokens that lead to
a configuration spell the parts of phrases that its frames hold, and what they are settled to.
-/

namespace PageBinding

namespace Expression

def Frame.inner : Frame → Nat
  | .unary _ => 8
  | .binary op _ => op.level + 1
  | _ => 0

def Frame.outer : Frame → Nat
  | .unary _ => 8
  | .binary op _ => op.level
  | .test _ | .alternate .. => 0
  | _ => 9

def innerLevel (frames : List Frame) : Nat :=
  (frames.head?.map Frame.inner).getD 0

def ItemsRead (ps : List Phrase) (is : List Item) : Prop :=
  ∀ qs js, Spells (.items qs) js → Spells (.items (ps.reverse ++ qs)) (is ++ js)

def EntriesRead (es : List PhraseEntry) (is : List Item) : Prop :=
  ∀ fs js, Spells (.entries fs) js → Spells (.entries (es.reverse ++ fs)) (is ++ js)

/--
What has been read of a phrase that is not complete.
-/
inductive Frame.Opens : Frame → List Item → Prop where
  | unary {token : Token} {op : UnaryOp} :
      token.lexeme = .unary op → Opens (.unary op) [token.plain]
  | binary {token : Token} {op : BinaryOp} {left : Phrase} {is : List Item} :
      Spells (.phrase op.level left) is → token.lexeme = .binary op →
      Opens (.binary op left) (is ++ [token.plain])
  | test {token : Token} {p : Phrase} {is : List Item} :
      Spells (.phrase 1 p) is → token.lexeme = .question → Opens (.test p) (is ++ [token.plain])
  | alternate {question colon : Token} {p q : Phrase} {is js : List Item} :
      Spells (.phrase 1 p) is → question.lexeme = .question → Spells (.phrase 0 q) js →
      colon.lexeme = .colon →
      Opens (.alternate p q) (is ++ question.plain :: (js ++ [colon.plain]))
  | group {token : Token} : token.lexeme = .leftParen → Opens .group [token.plain]
  | array {token : Token} {ps : List Phrase} {is : List Item} :
      token.lexeme = .leftBracket → ItemsRead ps is → Opens (.array ps) (token.plain :: is)
  | index {token : Token} {p : Phrase} {is : List Item} :
      Spells (.phrase 9 p) is → token.lexeme = .leftBracket →
      Opens (.index p false) (is ++ [token.plain])
  | optionalIndex {dot left : Token} {p : Phrase} {is : List Item} :
      Spells (.phrase 9 p) is → dot.lexeme = .optionalDot → left.lexeme = .leftBracket →
      Opens (.index p true) (is ++ [dot.plain, left.plain])
  | value {left key colon : Token} {es : List PhraseEntry} {is : List Item} :
      left.lexeme = .leftBrace → EntriesRead es is → key.IsKey → colon.lexeme = .colon →
      Opens (.value es key) (left.plain :: (is ++ [key.plain, colon.plain]))
  | computedKey {left bracket : Token} {es : List PhraseEntry} {is : List Item} :
      left.lexeme = .leftBrace → EntriesRead es is → bracket.lexeme = .leftBracket →
      Opens (.computedKey es) (left.plain :: (is ++ [bracket.plain]))
  | computedValue {left bracket bracket' colon : Token} {es : List PhraseEntry} {p : Phrase}
      {is js : List Item} :
      left.lexeme = .leftBrace → EntriesRead es is → bracket.lexeme = .leftBracket →
      Spells (.phrase 0 p) js → bracket'.lexeme = .rightBracket → colon.lexeme = .colon →
      Opens (.computedValue es p)
        (left.plain :: (is ++ bracket.plain :: (js ++ [bracket'.plain, colon.plain])))

/--
What has been read of all phrases that are not complete, the innermost one first.
-/
inductive Opened : List Frame → List Item → Prop where
  | nil : Opened [] []
  | cons {frame : Frame} {frames : List Frame} {is js : List Item} :
      Opened frames is → innerLevel frames ≤ frame.outer → frame.Opens js →
      Opened (frame :: frames) (is ++ js)

/--
What has been read since the innermost frame was opened.
-/
inductive State.Holds : State → List Item → Prop where
  | operand : Holds .operand []
  | ended {e : Phrase} {is : List Item} : Spells (.phrase 9 e) is → Holds (.ended e) is
  | member {dot : Token} {p : Phrase} {optional : Bool} {is : List Item} :
      Spells (.phrase 9 p) is → dot.lexeme = .access optional →
      Holds (.member p optional) (is ++ [dot.plain])
  | entry {left : Token} {es : List PhraseEntry} {is : List Item} :
      left.lexeme = .leftBrace → EntriesRead es is → Holds (.entry es) (left.plain :: is)
  | entryName {left name : Token} {es : List PhraseEntry} {is : List Item} (role : Role) :
      left.lexeme = .leftBrace → EntriesRead es is → name.terminal = .name →
      (∀ keyword : Keyword, keyword.text ≠ name.text) →
      Holds (.entryName es name) (left.plain :: (is ++ [⟨name, role⟩]))
  | entryKey {left key : Token} {es : List PhraseEntry} {is : List Item} :
      left.lexeme = .leftBrace → EntriesRead es is → key.IsKey →
      Holds (.entryKey es key) (left.plain :: (is ++ [key.plain]))
  | entryBracket {left bracket bracket' : Token} {es : List PhraseEntry} {p : Phrase}
      {is js : List Item} :
      left.lexeme = .leftBrace → EntriesRead es is → bracket.lexeme = .leftBracket →
      Spells (.phrase 0 p) js → bracket'.lexeme = .rightBracket →
      Holds (.entryBracket es p)
        (left.plain :: (is ++ bracket.plain :: (js ++ [bracket'.plain])))

def Config.Holds (config : Config) (ts : List Token) : Prop :=
  ∃ is js, Opened config.frames is ∧ config.state.Holds js ∧ (is ++ js).map Item.token = ts

theorem Opened.inner_le {frames : List Frame} {is : List Item} (h : Opened frames is) :
    innerLevel frames ≤ 8 := by
  cases h with
  | nil => decide
  | @cons frame frames _ _ _ _ _ =>
    have hlevel (op : BinaryOp) : op.level + 1 ≤ 8 := by cases op <;> decide
    cases frame with
    | binary op left => exact hlevel op
    | unary op => exact Nat.le_refl 8
    | _ => exact Nat.zero_le 8

theorem inner_le_of_closes {frames : List Frame} {level : Nat}
    (h : ∀ frame ∈ frames.head?, frame.closes level = false) :
    innerLevel frames ≤ level ∧ (level ≤ 1 → innerLevel frames = 0) := by
  cases frames with
  | nil => exact ⟨Nat.zero_le _, fun _ => rfl⟩
  | cons frame frames =>
    have hframe := h frame rfl
    cases frame with
    | unary op => cases hframe
    | binary op left =>
      have hlt : ¬ level ≤ op.level := of_decide_eq_false hframe
      have hpos := op.level_pos
      have hinner : innerLevel (.binary op left :: frames) = op.level + 1 := rfl
      omega
    | _ => exact ⟨Nat.zero_le _, fun _ => rfl⟩

theorem closes_settle (level : Nat) (e : Phrase) (frames : List Frame) :
    ∀ frame ∈ (Config.settle level e frames).2.head?, frame.closes level = false := by
  fun_induction Config.settle level e frames with
  | case1 e op rest ih => exact ih
  | case2 e op left rest hle ih => exact ih
  | case3 e op left rest hlt =>
    intro frame hmem
    cases hmem
    exact decide_eq_false hlt
  | case4 e test consequent rest hzero ih => exact ih
  | case5 e test consequent rest hne =>
    intro frame hmem
    cases hmem
    exact decide_eq_false hne
  | case6 frames e hunary hbinary halternate =>
    intro frame hmem
    cases frames with
    | nil => cases hmem
    | cons first rest =>
      cases hmem
      cases frame with
      | unary op => exact absurd rfl (hunary op rest)
      | binary op left => exact absurd rfl (hbinary op left rest)
      | alternate test consequent => exact absurd rfl (halternate test consequent rest)
      | _ => rfl

theorem spells_settle {level high : Nat} {e : Phrase} {frames : List Frame} {is js : List Item}
    (hlevel : level ≤ 8) (hopened : Opened frames is) (hspells : Spells (.phrase high e) js)
    (hinner : innerLevel frames ≤ high) (hhigh : level ≤ high) :
    ∃ is' js', Opened (Config.settle level e frames).2 is' ∧
      Spells (.phrase level (Config.settle level e frames).1) js' ∧ is' ++ js' = is ++ js := by
  -- Every frame that is completed is a rule of the grammar, with the operand as its last part.
  fun_induction Config.settle level e frames generalizing high is js with
  | case1 e op rest ih =>
    cases hopened with
    | cons hopened houter hopens =>
      cases hopens with
      | unary htoken =>
        have hunary := Spells.unary htoken (.weaken hinner hspells)
        obtain ⟨is', js', hopened', hspells', heq⟩ := ih hopened hunary houter hlevel
        exact ⟨is', js', hopened', hspells', by rw [heq]; simp⟩
  | case2 e op left rest hle ih =>
    cases hopened with
    | cons hopened houter hopens =>
      cases hopens with
      | binary hleft htoken =>
        have hbinary := Spells.binary hleft htoken (.weaken hinner hspells)
        obtain ⟨is', js', hopened', hspells', heq⟩ := ih hopened hbinary houter hle
        exact ⟨is', js', hopened', hspells', by rw [heq]; simp⟩
  | case3 e op left rest hlt =>
    exact ⟨is, js, hopened, .weaken hhigh hspells, rfl⟩
  | case4 e test consequent rest hzero ih =>
    cases hopened with
    | cons hopened houter hopens =>
      cases hopens with
      | alternate htest hquestion hconsequent hcolon =>
        have hconditional := Spells.conditional htest hquestion hconsequent hcolon
          (.weaken (Nat.zero_le _) hspells)
        obtain ⟨is', js', hopened', hspells', heq⟩ :=
          ih hopened hconditional houter (Nat.le_of_eq hzero)
        exact ⟨is', js', hopened', hspells', by rw [heq]; simp⟩
  | case5 => exact ⟨is, js, hopened, .weaken hhigh hspells, rfl⟩
  | case6 => exact ⟨is, js, hopened, .weaken hhigh hspells, rfl⟩

namespace ItemsRead

variable {p : Phrase} {ps : List Phrase} {is js : List Item} {token : Token}

theorem nil : ItemsRead [] [] :=
  fun _ _ h => h

theorem more (h : ItemsRead ps is) (hspells : Spells (.phrase 0 p) js)
    (htoken : token.lexeme = .comma) : ItemsRead (p :: ps) (is ++ (js ++ [token.plain])) := by
  intro qs ks hrest
  have hmore := h _ _ (.moreItems hspells htoken hrest)
  simpa using hmore

theorem close (h : ItemsRead ps is) (htoken : token.lexeme = .rightBracket) :
    Spells (.items ps.reverse) (is ++ [token.plain]) := by
  have hclose := h _ _ (.closeItems htoken)
  rwa [List.append_nil] at hclose

theorem last (h : ItemsRead ps is) (hspells : Spells (.phrase 0 p) js)
    (htoken : token.lexeme = .rightBracket) :
    Spells (.items (p :: ps).reverse) (is ++ (js ++ [token.plain])) := by
  rw [List.reverse_cons]
  exact h _ _ (.lastItem hspells htoken)

end ItemsRead

namespace EntriesRead

variable {e : PhraseEntry} {es : List PhraseEntry} {is js : List Item} {token : Token}

theorem nil : EntriesRead [] [] :=
  fun _ _ h => h

theorem more (h : EntriesRead es is) (hspells : Spells (.entry e) js)
    (htoken : token.lexeme = .comma) : EntriesRead (e :: es) (is ++ (js ++ [token.plain])) := by
  intro fs ks hrest
  have hmore := h _ _ (.moreEntries hspells htoken hrest)
  simpa using hmore

theorem close (h : EntriesRead es is) (htoken : token.lexeme = .rightBrace) :
    Spells (.entries es.reverse) (is ++ [token.plain]) := by
  have hclose := h _ _ (.closeEntries htoken)
  rwa [List.append_nil] at hclose

theorem last (h : EntriesRead es is) (hspells : Spells (.entry e) js)
    (htoken : token.lexeme = .rightBrace) :
    Spells (.entries (e :: es).reverse) (is ++ (js ++ [token.plain])) := by
  rw [List.reverse_cons]
  exact h _ _ (.lastEntry hspells htoken)

end EntriesRead

namespace Token

variable {token : Token} {lexeme : Lexeme} {rest : Text}

theorem lexeme_eq_of_terminal (h : token.lexeme.Fits rest)
    (hmark : lexeme ∈ Lexeme.marks.take 11) (hterminal : token.terminal = lexeme.terminal) :
    token.lexeme = lexeme := by
  have hspellings : ∀ lexeme ∈ Lexeme.marks.take 11,
      lexeme.terminal.base ∉ [.name, .number, .string] ∧
        lexeme.terminal.base.spellings = [lexeme.text] := by
    decide
  obtain ⟨hspelled, hspelling⟩ := hspellings lexeme hmark
  rw [← hterminal] at hspelled hspelling
  rw [lexeme_eq_of_fits h hspelled hspelling, hterminal]

theorem lexeme_eq_of_word (h : token.lexeme.Fits rest) {keyword : Keyword}
    (hterminal : token.terminal = .word keyword) :
    token.lexeme = ⟨.word keyword, keyword.text⟩ := by
  have htext : token.text = keyword.text := h.keyword keyword hterminal
  rw [Token.lexeme, hterminal, htext]

end Token

namespace Config

variable {frames : List Frame} {effects : List Clause} {is js : List Item} {e : Phrase}
  {next : Config} {token : Token} {rest : Text}

theorem holds_ended (hopened : Opened frames is) (hspells : Spells (.phrase 9 e) js) :
    Holds ⟨.ended e, frames, effects⟩ ((is ++ js).map Item.token) :=
  ⟨is, js, hopened, .ended hspells, rfl⟩

theorem holds_operand {frame : Frame} (hopened : Opened frames is)
    (houter : innerLevel frames ≤ frame.outer) (hopens : frame.Opens js) :
    Holds ⟨.operand, frame :: frames, effects⟩ ((is ++ js).map Item.token) := by
  refine ⟨is ++ js, [], .cons hopened houter hopens, .operand, ?_⟩
  rw [List.append_nil]

theorem Admits.keyword_ne {config : Config} (h : config.Admits token)
    (hterminal : token.terminal = .name)
    (hwords : ∀ keyword : Keyword, config.accepts (.word keyword) = true) :
    ∀ keyword : Keyword, keyword.text ≠ token.text := by
  intro keyword heq
  exact absurd (h.keyword hterminal keyword heq) (by simp [hwords])

section Operand

theorem holds_item {item : Item} (hopened : Opened frames is) (hitem : item.token = token)
    (hspells : Spells (.phrase 9 e) [item]) :
    Holds ⟨.ended e, frames, effects⟩ (is.map Item.token ++ [token]) := by
  have hholds : Holds ⟨.ended e, frames, effects⟩ _ := holds_ended hopened hspells
  rwa [List.map_append, List.map_singleton, hitem] at hholds

theorem holds_push {frame : Frame} (hopened : Opened frames is) (houter : 8 ≤ frame.outer)
    (hopens : frame.Opens [token.plain]) :
    Holds ⟨.operand, frame :: frames, effects⟩ (is.map Item.token ++ [token]) := by
  have hholds : Holds ⟨.operand, frame :: frames, effects⟩ _ :=
    holds_operand hopened (hopened.inner_le.trans houter) hopens
  rwa [List.map_append] at hholds

theorem holds_unary (hopened : Opened frames is) (hfits : token.lexeme.Fits rest)
    (hterminal : token.terminal ∈ [.word .typeofWord, .negation, .additive])
    (hstep : ((UnaryOp.ofText? token.text).bind fun op =>
      some ⟨.operand, .unary op :: frames, effects⟩) = some next) :
    next.Holds (is.map Item.token ++ [token]) := by
  obtain ⟨op, hop, hnext⟩ := Option.bind_eq_some_iff.mp hstep
  cases hnext
  exact holds_push hopened (Nat.le_refl 8) (.unary (Token.lexeme_eq_unary hfits hterminal hop))

theorem holds_brace (hopened : Opened frames is) (htoken : token.lexeme = .leftBrace) :
    Holds ⟨.entry [], frames, effects⟩ (is.map Item.token ++ [token]) := by
  refine ⟨is, [token.plain], hopened, .entry htoken .nil, ?_⟩
  rw [List.map_append]
  rfl

theorem holds_bracket {ps : List Phrase} (h : Opened (.array ps :: frames) is)
    (htoken : token.lexeme = .rightBracket) :
    Holds ⟨.ended (.array ps.reverse), frames, effects⟩ (is.map Item.token ++ [token]) := by
  cases h with
  | cons hopened houter hopens =>
    cases hopens with
    | array hleft hitems =>
      have hholds : Holds ⟨.ended (.array ps.reverse), frames, effects⟩ _ :=
        holds_ended hopened (.array hleft (hitems.close htoken))
      simpa using hholds

theorem holds_stepOperand (hopened : Opened frames is)
    (hadmits : Admits ⟨.operand, frames, effects⟩ token) (hfits : token.lexeme.Fits rest)
    (hstep : stepOperand ⟨.operand, frames, effects⟩ token = some next) :
    next.Holds (is.map Item.token ++ [token]) := by
  have hmark {lexeme : Lexeme} (hmark : lexeme ∈ Lexeme.marks.take 11) :
      token.terminal = lexeme.terminal → token.lexeme = lexeme :=
    Token.lexeme_eq_of_terminal hfits hmark
  unfold stepOperand at hstep
  dsimp only at hstep
  split at hstep
  case h_7 hterminal | h_8 hterminal | h_9 hterminal =>
    exact holds_unary hopened hfits (by rw [hterminal]; decide) hstep
  all_goals cases hstep
  case h_1 hterminal => exact holds_item hopened rfl (.number hterminal)
  case h_2 hterminal => exact holds_item hopened rfl (.string hterminal)
  case h_3 hterminal =>
    have hkeyword := hadmits.keyword_ne hterminal fun _ => rfl
    exact @holds_item _ _ _ _ _ ⟨token, .name⟩ hopened rfl (.name hterminal hkeyword)
  case h_4 hterminal =>
    exact holds_item hopened rfl (.bool (Token.lexeme_eq_of_word hfits hterminal))
  case h_5 hterminal =>
    exact holds_item hopened rfl (.bool (Token.lexeme_eq_of_word hfits hterminal))
  case h_6 hterminal =>
    exact holds_item hopened rfl (.null (Token.lexeme_eq_of_word hfits hterminal))
  case h_10 hterminal =>
    exact holds_push hopened (by decide) (.group (hmark (by decide) hterminal))
  case h_11 hterminal =>
    exact holds_push hopened (by decide) (.array (hmark (by decide) hterminal) .nil)
  case h_12 hterminal => exact holds_brace hopened (hmark (by decide) hterminal)
  case h_13 hterminal => exact holds_bracket hopened (hmark (by decide) hterminal)
  case h_14 =>
    cases hopened with
    | cons _ _ hopens => cases hopens

end Operand

section Closing

variable {p : Phrase} {ps : List Phrase} {es : List PhraseEntry} {key : Token}

theorem holds_colon (h : Opened (.test p :: frames) is) (hspells : Spells (.phrase 0 e) js)
    (htoken : token.lexeme = .colon) :
    Holds ⟨.operand, .alternate p e :: frames, effects⟩ ((is ++ js).map Item.token ++ [token]) := by
  cases h with
  | cons hopened houter hopens =>
    cases hopens with
    | test htest hquestion =>
      have hholds : Holds ⟨.operand, .alternate p e :: frames, effects⟩ _ :=
        holds_operand hopened houter (.alternate htest hquestion hspells htoken)
      simpa using hholds

theorem holds_comma_array (h : Opened (.array ps :: frames) is) (hspells : Spells (.phrase 0 e) js)
    (htoken : token.lexeme = .comma) :
    Holds ⟨.operand, .array (e :: ps) :: frames, effects⟩
      ((is ++ js).map Item.token ++ [token]) := by
  cases h with
  | cons hopened houter hopens =>
    cases hopens with
    | array hleft hitems =>
      have hholds : Holds ⟨.operand, .array (e :: ps) :: frames, effects⟩ _ :=
        holds_operand hopened houter (.array hleft (hitems.more hspells htoken))
      simpa using hholds

theorem holds_comma_value (h : Opened (.value es key :: frames) is)
    (hspells : Spells (.phrase 0 e) js) (htoken : token.lexeme = .comma) :
    Holds ⟨.entry (.keyed key e :: es), frames, effects⟩
      ((is ++ js).map Item.token ++ [token]) := by
  cases h with
  | cons hopened houter hopens =>
    cases hopens with
    | value hleft hentries hkey hcolon =>
      have hentry := hentries.more (.keyed hkey hcolon hspells) htoken
      exact ⟨_, _, hopened, .entry hleft hentry, by simp⟩

theorem holds_comma_computed (h : Opened (.computedValue es p :: frames) is)
    (hspells : Spells (.phrase 0 e) js) (htoken : token.lexeme = .comma) :
    Holds ⟨.entry (.computed p e :: es), frames, effects⟩
      ((is ++ js).map Item.token ++ [token]) := by
  cases h with
  | cons hopened houter hopens =>
    cases hopens with
    | computedValue hleft hentries hbracket hkey hbracket' hcolon =>
      have hentry := hentries.more (.computed hbracket hkey hbracket' hcolon hspells) htoken
      exact ⟨_, _, hopened, .entry hleft hentry, by simp⟩

theorem holds_bracket_array (h : Opened (.array ps :: frames) is)
    (hspells : Spells (.phrase 0 e) js) (htoken : token.lexeme = .rightBracket) :
    Holds ⟨.ended (.array (e :: ps).reverse), frames, effects⟩
      ((is ++ js).map Item.token ++ [token]) := by
  cases h with
  | cons hopened houter hopens =>
    cases hopens with
    | array hleft hitems =>
      have hholds : Holds ⟨.ended (.array (e :: ps).reverse), frames, effects⟩ _ :=
        holds_ended hopened (.array hleft (hitems.last hspells htoken))
      simpa using hholds

theorem holds_bracket_index {optional : Bool} (h : Opened (.index p optional :: frames) is)
    (hspells : Spells (.phrase 0 e) js) (htoken : token.lexeme = .rightBracket) :
    Holds ⟨.ended (.index p e optional), frames, effects⟩
      ((is ++ js).map Item.token ++ [token]) := by
  cases h with
  | cons hopened houter hopens =>
    cases hopens with
    | index hobject hleft =>
      have hholds : Holds ⟨.ended (.index p e false), frames, effects⟩ _ :=
        holds_ended hopened (.index hobject hleft hspells htoken)
      simpa using hholds
    | optionalIndex hobject hdot hleft =>
      have hholds : Holds ⟨.ended (.index p e true), frames, effects⟩ _ :=
        holds_ended hopened (.optionalIndex hobject hdot hleft hspells htoken)
      simpa using hholds

theorem holds_bracket_key (h : Opened (.computedKey es :: frames) is)
    (hspells : Spells (.phrase 0 e) js) (htoken : token.lexeme = .rightBracket) :
    Holds ⟨.entryBracket es e, frames, effects⟩ ((is ++ js).map Item.token ++ [token]) := by
  cases h with
  | cons hopened houter hopens =>
    cases hopens with
    | computedKey hleft hentries hbracket =>
      exact ⟨_, _, hopened, .entryBracket hleft hentries hbracket hspells htoken, by simp⟩

theorem holds_paren (h : Opened (.group :: frames) is) (hspells : Spells (.phrase 0 e) js)
    (htoken : token.lexeme = .rightParen) :
    Holds ⟨.ended e, frames, effects⟩ ((is ++ js).map Item.token ++ [token]) := by
  cases h with
  | cons hopened houter hopens =>
    cases hopens with
    | group hleft =>
      have hholds : Holds ⟨.ended e, frames, effects⟩ _ :=
        holds_ended hopened (.group hleft hspells htoken)
      simpa using hholds

theorem holds_brace_value (h : Opened (.value es key :: frames) is)
    (hspells : Spells (.phrase 0 e) js) (htoken : token.lexeme = .rightBrace) :
    Holds ⟨.ended (.object (.keyed key e :: es).reverse), frames, effects⟩
      ((is ++ js).map Item.token ++ [token]) := by
  cases h with
  | cons hopened houter hopens =>
    cases hopens with
    | value hleft hentries hkey hcolon =>
      have hentry := hentries.last (.keyed hkey hcolon hspells) htoken
      have hholds : Holds ⟨.ended (.object (.keyed key e :: es).reverse), frames, effects⟩ _ :=
        holds_ended hopened (.object hleft hentry)
      simpa using hholds

theorem holds_brace_computed (h : Opened (.computedValue es p :: frames) is)
    (hspells : Spells (.phrase 0 e) js) (htoken : token.lexeme = .rightBrace) :
    Holds ⟨.ended (.object (.computed p e :: es).reverse), frames, effects⟩
      ((is ++ js).map Item.token ++ [token]) := by
  cases h with
  | cons hopened houter hopens =>
    cases hopens with
    | computedValue hleft hentries hbracket hkey hbracket' hcolon =>
      have hentry := hentries.last (.computed hbracket hkey hbracket' hcolon hspells) htoken
      have hholds : Holds ⟨.ended (.object (.computed p e :: es).reverse), frames, effects⟩ _ :=
        holds_ended hopened (.object hleft hentry)
      simpa using hholds

theorem holds_stepSettled {state : State} (hopened : Opened frames is)
    (hspells : Spells (.phrase 0 e) js) (hfits : token.lexeme.Fits rest)
    (hstep : stepSettled ⟨state, frames, effects⟩ e token = some next) :
    next.Holds ((is ++ js).map Item.token ++ [token]) := by
  have hmark {lexeme : Lexeme} (hmark : lexeme ∈ Lexeme.marks.take 11) :
      token.terminal = lexeme.terminal → token.lexeme = lexeme :=
    Token.lexeme_eq_of_terminal hfits hmark
  unfold stepSettled at hstep
  dsimp only at hstep
  split at hstep
  all_goals cases hstep
  case h_1 hterminal => exact holds_colon hopened hspells (hmark (by decide) hterminal)
  case h_2 hterminal => exact holds_comma_array hopened hspells (hmark (by decide) hterminal)
  case h_4 hterminal => exact holds_comma_value hopened hspells (hmark (by decide) hterminal)
  case h_5 hterminal => exact holds_comma_computed hopened hspells (hmark (by decide) hterminal)
  case h_6 hterminal => exact holds_bracket_array hopened hspells (hmark (by decide) hterminal)
  case h_7 hterminal => exact holds_bracket_index hopened hspells (hmark (by decide) hterminal)
  case h_8 hterminal => exact holds_bracket_key hopened hspells (hmark (by decide) hterminal)
  case h_9 hterminal => exact holds_paren hopened hspells (hmark (by decide) hterminal)
  case h_11 hterminal => exact holds_brace_value hopened hspells (hmark (by decide) hterminal)
  case h_12 hterminal => exact holds_brace_computed hopened hspells (hmark (by decide) hterminal)
  case h_3 | h_10 | h_13 | h_14 =>
    cases hopened with
    | cons _ _ hopens => cases hopens

end Closing

section Ended

theorem holds_operator {op : BinaryOp} (hopened : Opened frames is)
    (hspells : Spells (.phrase 9 e) js) (htoken : token.lexeme = .binary op) :
    Holds ⟨.operand, .binary op (settle op.level e frames).1 :: (settle op.level e frames).2,
      effects⟩ ((is ++ js).map Item.token ++ [token]) := by
  have hle : op.level ≤ 8 := by cases op <;> decide
  obtain ⟨is', js', hopened', hspells', heq⟩ := spells_settle hle hopened hspells
    (Nat.le_succ_of_le hopened.inner_le) (Nat.le_succ_of_le hle)
  have hcloses := inner_le_of_closes (closes_settle op.level e frames)
  have hholds : Holds ⟨.operand, .binary op _ :: _, effects⟩ _ :=
    holds_operand hopened' hcloses.1 (.binary hspells' htoken)
  rw [← List.append_assoc, heq, List.map_append] at hholds
  exact hholds

theorem holds_question (hopened : Opened frames is) (hspells : Spells (.phrase 9 e) js)
    (htoken : token.lexeme = .question) :
    Holds ⟨.operand, .test (settle 1 e frames).1 :: (settle 1 e frames).2, effects⟩
      ((is ++ js).map Item.token ++ [token]) := by
  obtain ⟨is', js', hopened', hspells', heq⟩ := spells_settle (by decide) hopened hspells
    (Nat.le_succ_of_le hopened.inner_le) (show 1 ≤ 9 by decide)
  have hcloses := inner_le_of_closes (closes_settle 1 e frames)
  have hholds : Holds ⟨.operand, .test _ :: _, effects⟩ _ :=
    holds_operand hopened' (Nat.le_of_eq (hcloses.2 (Nat.le_refl 1))) (.test hspells' htoken)
  rw [← List.append_assoc, heq, List.map_append] at hholds
  exact hholds

theorem holds_access {optional : Bool} (hopened : Opened frames is)
    (hspells : Spells (.phrase 9 e) js) (htoken : token.lexeme = .access optional) :
    Holds ⟨.member e optional, frames, effects⟩ ((is ++ js).map Item.token ++ [token]) := by
  refine ⟨is, js ++ [token.plain], hopened, .member hspells htoken, ?_⟩
  rw [← List.append_assoc, List.map_append]
  rfl

theorem holds_index (hopened : Opened frames is) (hspells : Spells (.phrase 9 e) js)
    (htoken : token.lexeme = .leftBracket) :
    Holds ⟨.operand, .index e false :: frames, effects⟩
      ((is ++ js).map Item.token ++ [token]) := by
  have hholds : Holds ⟨.operand, .index e false :: frames, effects⟩ _ :=
    holds_operand hopened (Nat.le_succ_of_le hopened.inner_le) (.index hspells htoken)
  rw [← List.append_assoc, List.map_append] at hholds
  exact hholds

theorem holds_stepEnded (hopened : Opened frames is) (hspells : Spells (.phrase 9 e) js)
    (hadmits : Admits ⟨.ended e, frames, effects⟩ token) (hfits : token.lexeme.Fits rest)
    (hstep : stepEnded ⟨.ended e, frames, effects⟩ e token = some next) :
    next.Holds ((is ++ js).map Item.token ++ [token]) := by
  have hmark {lexeme : Lexeme} (hmark : lexeme ∈ Lexeme.marks.take 11) :
      token.terminal = lexeme.terminal → token.lexeme = lexeme :=
    Token.lexeme_eq_of_terminal hfits hmark
  unfold stepEnded at hstep
  split at hstep
  . next op hop =>
    cases hstep
    exact holds_operator hopened hspells (Token.lexeme_eq_binary hfits hadmits.accepts hop)
  . dsimp only at hstep
    split at hstep
    case h_5 =>
      obtain ⟨is', js', hopened', hspells', heq⟩ := spells_settle (Nat.zero_le 8) hopened hspells
        (Nat.le_succ_of_le hopened.inner_le) (Nat.zero_le 9)
      rw [← heq]
      exact holds_stepSettled hopened' hspells' hfits hstep
    all_goals cases hstep
    case h_1 hterminal => exact holds_access hopened hspells (hmark (by decide) hterminal)
    case h_2 hterminal => exact holds_access hopened hspells (hmark (by decide) hterminal)
    case h_3 hterminal => exact holds_index hopened hspells (hmark (by decide) hterminal)
    case h_4 hterminal => exact holds_question hopened hspells (hmark (by decide) hterminal)

end Ended

section Between

variable {p : Phrase} {es : List PhraseEntry} {name key : Token}

theorem holds_label {optional : Bool} (hopened : Opened frames is)
    (hstate : (State.member p optional).Holds js) (hlabel : token.IsLabel) :
    Holds ⟨.ended (.member p token.text optional), frames, effects⟩
      ((is ++ js).map Item.token ++ [token]) := by
  cases hstate with
  | member hspells hdot =>
    have hholds : Holds ⟨.ended (.member p token.text optional), frames, effects⟩ _ :=
      holds_ended hopened (.member hspells hdot hlabel)
    simpa using hholds

theorem holds_optionalIndex (hopened : Opened frames is) (hstate : (State.member p true).Holds js)
    (htoken : token.lexeme = .leftBracket) :
    Holds ⟨.operand, .index p true :: frames, effects⟩ ((is ++ js).map Item.token ++ [token]) := by
  cases hstate with
  | member hspells hdot =>
    have hholds : Holds ⟨.operand, .index p true :: frames, effects⟩ _ :=
      holds_operand hopened (Nat.le_succ_of_le hopened.inner_le)
        (.optionalIndex hspells hdot htoken)
    simpa using hholds

theorem holds_entryName (hopened : Opened frames is) (hstate : (State.entry es).Holds js)
    (hterminal : token.terminal = .name)
    (hkeyword : ∀ keyword : Keyword, keyword.text ≠ token.text) :
    Holds ⟨.entryName es token, frames, effects⟩ ((is ++ js).map Item.token ++ [token]) := by
  cases hstate with
  | entry hleft hentries =>
    exact ⟨_, _, hopened, .entryName .plain hleft hentries hterminal hkeyword, by simp⟩

theorem holds_entryKey (hopened : Opened frames is) (hstate : (State.entry es).Holds js)
    (hkey : token.IsKey) :
    Holds ⟨.entryKey es token, frames, effects⟩ ((is ++ js).map Item.token ++ [token]) := by
  cases hstate with
  | entry hleft hentries => exact ⟨_, _, hopened, .entryKey hleft hentries hkey, by simp⟩

theorem holds_computedKey (hopened : Opened frames is) (hstate : (State.entry es).Holds js)
    (htoken : token.lexeme = .leftBracket) :
    Holds ⟨.operand, .computedKey es :: frames, effects⟩
      ((is ++ js).map Item.token ++ [token]) := by
  cases hstate with
  | entry hleft hentries =>
    have hholds : Holds ⟨.operand, .computedKey es :: frames, effects⟩ _ :=
      holds_operand hopened (Nat.le_succ_of_le hopened.inner_le)
        (.computedKey hleft hentries htoken)
    simpa using hholds

theorem holds_object (hopened : Opened frames is) (hstate : (State.entry es).Holds js)
    (htoken : token.lexeme = .rightBrace) :
    Holds ⟨.ended (.object es.reverse), frames, effects⟩
      ((is ++ js).map Item.token ++ [token]) := by
  cases hstate with
  | entry hleft hentries =>
    have hholds : Holds ⟨.ended (.object es.reverse), frames, effects⟩ _ :=
      holds_ended hopened (.object hleft (hentries.close htoken))
    simpa using hholds

theorem holds_value (hopened : Opened frames is) (hstate : (State.entryKey es key).Holds js)
    (htoken : token.lexeme = .colon) :
    Holds ⟨.operand, .value es key :: frames, effects⟩ ((is ++ js).map Item.token ++ [token]) := by
  cases hstate with
  | entryKey hleft hentries hkey =>
    have hholds : Holds ⟨.operand, .value es key :: frames, effects⟩ _ :=
      holds_operand hopened (Nat.le_succ_of_le hopened.inner_le)
        (.value hleft hentries hkey htoken)
    simpa using hholds

theorem holds_key_of_holds_name (hstate : (State.entryName es name).Holds js) :
    ∃ js', (State.entryKey es name).Holds js' ∧ js'.map Item.token = js.map Item.token := by
  cases hstate with
  | entryName role hleft hentries hname hkeyword =>
    exact ⟨_, .entryKey hleft hentries (.inl (.inl ⟨hname, hkeyword⟩)), by simp⟩

theorem holds_comma_name (hopened : Opened frames is) (hstate : (State.entryName es name).Holds js)
    (htoken : token.lexeme = .comma) :
    Holds ⟨.entry (.shorthand name :: es), frames, effects⟩
      ((is ++ js).map Item.token ++ [token]) := by
  cases hstate with
  | entryName role hleft hentries hname hkeyword =>
    have hentry := hentries.more (.shorthand hname hkeyword) htoken
    exact ⟨_, _, hopened, .entry hleft hentry, by simp⟩

theorem holds_brace_name (hopened : Opened frames is) (hstate : (State.entryName es name).Holds js)
    (htoken : token.lexeme = .rightBrace) :
    Holds ⟨.ended (.object (.shorthand name :: es).reverse), frames, effects⟩
      ((is ++ js).map Item.token ++ [token]) := by
  cases hstate with
  | entryName role hleft hentries hname hkeyword =>
    have hentry := hentries.last (.shorthand hname hkeyword) htoken
    have hholds : Holds ⟨.ended (.object (.shorthand name :: es).reverse), frames, effects⟩ _ :=
      holds_ended hopened (.object hleft hentry)
    simpa using hholds

theorem holds_computedValue (hopened : Opened frames is)
    (hstate : (State.entryBracket es p).Holds js) (htoken : token.lexeme = .colon) :
    Holds ⟨.operand, .computedValue es p :: frames, effects⟩
      ((is ++ js).map Item.token ++ [token]) := by
  cases hstate with
  | entryBracket hleft hentries hbracket hkey hbracket' =>
    have hholds : Holds ⟨.operand, .computedValue es p :: frames, effects⟩ _ :=
      holds_operand hopened (Nat.le_succ_of_le hopened.inner_le)
        (.computedValue hleft hentries hbracket hkey hbracket' htoken)
    simpa using hholds

theorem holds_stepBetween {state : State} (hopened : Opened frames is) (hstate : state.Holds js)
    (hadmits : Admits ⟨state, frames, effects⟩ token) (hfits : token.lexeme.Fits rest)
    (hstep : stepBetween ⟨state, frames, effects⟩ token = some next) :
    next.Holds ((is ++ js).map Item.token ++ [token]) := by
  have hmark {lexeme : Lexeme} (hmark : lexeme ∈ Lexeme.marks.take 11) :
      token.terminal = lexeme.terminal → token.lexeme = lexeme :=
    Token.lexeme_eq_of_terminal hfits hmark
  unfold stepBetween at hstep
  dsimp only at hstep
  split at hstep
  all_goals cases hstep
  case h_1 hterminal =>
    exact holds_label hopened hstate (.inl ⟨hterminal, hadmits.keyword_ne hterminal fun _ => rfl⟩)
  case h_2 hterminal => exact holds_label hopened hstate (.inr ⟨_, hterminal⟩)
  case h_3 hterminal => exact holds_optionalIndex hopened hstate (hmark (by decide) hterminal)
  case h_4 hterminal =>
    exact holds_entryName hopened hstate hterminal (hadmits.keyword_ne hterminal fun _ => rfl)
  case h_5 hterminal => exact holds_entryKey hopened hstate (.inl (.inr ⟨_, hterminal⟩))
  case h_6 hterminal => exact holds_entryKey hopened hstate (.inr (.inl hterminal))
  case h_7 hterminal => exact holds_entryKey hopened hstate (.inr (.inr hterminal))
  case h_8 hterminal => exact holds_computedKey hopened hstate (hmark (by decide) hterminal)
  case h_9 hterminal => exact holds_object hopened hstate (hmark (by decide) hterminal)
  case h_10 hterminal =>
    obtain ⟨js', hkey, heq⟩ := holds_key_of_holds_name hstate
    rw [List.map_append, ← heq, ← List.map_append]
    exact holds_value hopened hkey (hmark (by decide) hterminal)
  case h_11 hterminal => exact holds_value hopened hstate (hmark (by decide) hterminal)
  case h_12 hterminal => exact holds_comma_name hopened hstate (hmark (by decide) hterminal)
  case h_13 hterminal => exact holds_brace_name hopened hstate (hmark (by decide) hterminal)
  case h_14 hterminal => exact holds_computedValue hopened hstate (hmark (by decide) hterminal)
  case h_15 | h_16 | h_17 | h_18 => cases hstate

end Between

theorem Holds.step {config : Config} {ts : List Token} (h : config.Holds ts)
    (hadmits : config.Admits token) (hfits : token.lexeme.Fits rest)
    (hstep : config.step token = some next) : next.Holds (ts ++ [token]) := by
  obtain ⟨is, js, hopened, hstate, rfl⟩ := h
  obtain ⟨state, frames, effects⟩ := config
  dsimp only at hopened hstate
  cases hstate with
  | operand =>
    rw [List.append_nil]
    exact holds_stepOperand hopened hadmits hfits hstep
  | ended hspells => exact holds_stepEnded hopened hspells hadmits hfits hstep
  | member hspells hdot =>
    exact holds_stepBetween hopened (.member hspells hdot) hadmits hfits hstep
  | entry hleft hentries =>
    exact holds_stepBetween hopened (.entry hleft hentries) hadmits hfits hstep
  | entryName role hleft hentries hname hkeyword =>
    exact holds_stepBetween hopened (.entryName role hleft hentries hname hkeyword) hadmits hfits
      hstep
  | entryKey hleft hentries hkey =>
    exact holds_stepBetween hopened (.entryKey hleft hentries hkey) hadmits hfits hstep
  | entryBracket hleft hentries hbracket hkey hbracket' =>
    exact holds_stepBetween hopened (.entryBracket hleft hentries hbracket hkey hbracket') hadmits
      hfits hstep

theorem Holds.steps {config last : Config} {ts us : List Token} (h : config.Holds ts)
    (hsteps : Steps config us last) (hfits : ∀ token ∈ us, ∃ rest, token.lexeme.Fits rest) :
    last.Holds (ts ++ us) := by
  induction hsteps generalizing ts with
  | refl =>
    rw [List.append_nil]
    exact h
  | step hadmits hstep _ ih =>
    obtain ⟨⟨rest, htoken⟩, htokens⟩ := List.forall_mem_cons.mp hfits
    have hrest := ih (h.step hadmits htoken hstep) htokens
    rwa [List.append_assoc, List.singleton_append] at hrest

end Config

theorem Config.Holds.exists_spells {config : Config} {ts : List Token} {e p : Phrase}
    (h : config.Holds ts) (hstate : config.state = .ended e)
    (hsettle : settle 0 e config.frames = (p, [])) :
    ∃ is, Spells (.phrase 0 p) is ∧ is.map Item.token = ts := by
  obtain ⟨is, js, hopened, hended, hitems⟩ := h
  rw [hstate] at hended
  cases hended with
  | ended hspells =>
    obtain ⟨is', js', hopened', hspells', heq⟩ := spells_settle (Nat.zero_le 8) hopened hspells
      (Nat.le_succ_of_le hopened.inner_le) (Nat.zero_le 9)
    rw [hsettle] at hopened' hspells'
    cases hopened' with
    | nil =>
      rw [List.nil_append] at heq
      exact ⟨js', hspells', by rwa [heq]⟩

theorem Layout.fits {pos : Position} {t : Text} {ts : List Token} (h : Layout pos t ts) :
    ∀ token ∈ ts, ∃ rest, token.lexeme.Fits rest := by
  induction h with
  | nil => exact fun _ hmem => absurd hmem List.not_mem_nil
  | gap _ _ ih => exact ih
  | token hfits _ ih => exact List.forall_mem_cons.mpr ⟨⟨_, hfits⟩, ih⟩

theorem Config.holds_expression : Config.expression.Holds [] :=
  ⟨[], [], .nil, .operand, rfl⟩

theorem exists_spells_of_read {t : Text} {p : Phrase} (h : Phrase.read t = .ok p) :
    ∃ is, Layout .start t (is.map Item.token) ∧ Spells (.phrase 0 p) is := by
  obtain ⟨ts, e, frames, effects, hlayout, hsteps, hsettle⟩ := read_eq_ok_iff.mp h
  have hholds := Config.holds_expression.steps hsteps hlayout.fits
  obtain ⟨is, hspells, hitems⟩ := hholds.exists_spells rfl hsettle
  refine ⟨is, ?_, hspells⟩
  rwa [hitems]

end Expression

end PageBinding
