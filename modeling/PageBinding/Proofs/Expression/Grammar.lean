import PageBinding.Proofs.Expression.Lexeme
import PageBinding.Proofs.Expression.Reading

/-!
This module contains the grammar of expressions: which tokens spell a phrase. The parser reads only
what the grammar has, and reads it as the grammar has it.
-/

namespace PageBinding

namespace Expression

inductive Role where
  | plain
  | name
  /-- The token is an entry of an object, of which it is the key too. -/
  | shorthand
  deriving DecidableEq

structure Item where
  token : Token
  role : Role

def Token.plain (token : Token) : Item :=
  ⟨token, .plain⟩

@[simp]
theorem Token.plain_token (token : Token) : token.plain.token = token := rfl

/--
The parts of a text that the grammar has rules for. A phrase of a level can stand where an operand
is to come that binds at least as tightly; items and entries go up to the bracket that closes them.
-/
inductive Part where
  | phrase (level : Nat) (p : Phrase)
  | items (ps : List Phrase)
  | entry (entry : PhraseEntry)
  | entries (es : List PhraseEntry)

inductive Spells : Part → List Item → Prop where
  | weaken {low high : Nat} {p : Phrase} {is : List Item} :
      low ≤ high → Spells (.phrase high p) is → Spells (.phrase low p) is
  | number {token : Token} :
      token.terminal = .number → Spells (.phrase 9 (.number token)) [token.plain]
  | string {token : Token} :
      token.terminal = .string → Spells (.phrase 9 (.string token)) [token.plain]
  | name {token : Token} :
      token.terminal = .name → (∀ keyword : Keyword, keyword.text ≠ token.text) →
      Spells (.phrase 9 (.name token)) [⟨token, .name⟩]
  | bool {token : Token} {b : Bool} :
      token.lexeme = .bool b → Spells (.phrase 9 (.bool b)) [token.plain]
  | null {token : Token} :
      token.lexeme = .null → Spells (.phrase 9 .null) [token.plain]
  | group {left right : Token} {p : Phrase} {is : List Item} :
      left.lexeme = .leftParen → Spells (.phrase 0 p) is → right.lexeme = .rightParen →
      Spells (.phrase 9 p) (left.plain :: (is ++ [right.plain]))
  | array {left : Token} {ps : List Phrase} {is : List Item} :
      left.lexeme = .leftBracket → Spells (.items ps) is →
      Spells (.phrase 9 (.array ps)) (left.plain :: is)
  | object {left : Token} {es : List PhraseEntry} {is : List Item} :
      left.lexeme = .leftBrace → Spells (.entries es) is →
      Spells (.phrase 9 (.object es)) (left.plain :: is)
  | unary {token : Token} {op : UnaryOp} {p : Phrase} {is : List Item} :
      token.lexeme = .unary op → Spells (.phrase 8 p) is →
      Spells (.phrase 8 (.unary op p)) (token.plain :: is)
  | binary {token : Token} {op : BinaryOp} {p q : Phrase} {is js : List Item} :
      Spells (.phrase op.level p) is → token.lexeme = .binary op →
      Spells (.phrase (op.level + 1) q) js →
      Spells (.phrase op.level (.binary op p q)) (is ++ token.plain :: js)
  | conditional {question colon : Token} {p q r : Phrase} {is js ks : List Item} :
      Spells (.phrase 1 p) is → question.lexeme = .question → Spells (.phrase 0 q) js →
      colon.lexeme = .colon → Spells (.phrase 0 r) ks →
      Spells (.phrase 0 (.conditional p q r))
        (is ++ question.plain :: (js ++ colon.plain :: ks))
  | member {dot word : Token} {optional : Bool} {p : Phrase} {is : List Item} :
      Spells (.phrase 9 p) is → dot.lexeme = .access optional → word.IsLabel →
      Spells (.phrase 9 (.member p word.text optional)) (is ++ [dot.plain, word.plain])
  | index {left right : Token} {p q : Phrase} {is js : List Item} :
      Spells (.phrase 9 p) is → left.lexeme = .leftBracket → Spells (.phrase 0 q) js →
      right.lexeme = .rightBracket →
      Spells (.phrase 9 (.index p q false)) (is ++ left.plain :: (js ++ [right.plain]))
  | optionalIndex {dot left right : Token} {p q : Phrase} {is js : List Item} :
      Spells (.phrase 9 p) is → dot.lexeme = .optionalDot → left.lexeme = .leftBracket →
      Spells (.phrase 0 q) js → right.lexeme = .rightBracket →
      Spells (.phrase 9 (.index p q true))
        (is ++ dot.plain :: left.plain :: (js ++ [right.plain]))
  | closeItems {right : Token} :
      right.lexeme = .rightBracket → Spells (.items []) [right.plain]
  | lastItem {right : Token} {p : Phrase} {is : List Item} :
      Spells (.phrase 0 p) is → right.lexeme = .rightBracket →
      Spells (.items [p]) (is ++ [right.plain])
  | moreItems {comma : Token} {p : Phrase} {ps : List Phrase} {is js : List Item} :
      Spells (.phrase 0 p) is → comma.lexeme = .comma → Spells (.items ps) js →
      Spells (.items (p :: ps)) (is ++ comma.plain :: js)
  | shorthand {token : Token} :
      token.terminal = .name → (∀ keyword : Keyword, keyword.text ≠ token.text) →
      Spells (.entry (.shorthand token)) [⟨token, .shorthand⟩]
  | keyed {key colon : Token} {p : Phrase} {is : List Item} :
      key.IsKey → colon.lexeme = .colon → Spells (.phrase 0 p) is →
      Spells (.entry (.keyed key p)) (key.plain :: colon.plain :: is)
  | computed {left right colon : Token} {p q : Phrase} {is js : List Item} :
      left.lexeme = .leftBracket → Spells (.phrase 0 p) is → right.lexeme = .rightBracket →
      colon.lexeme = .colon → Spells (.phrase 0 q) js →
      Spells (.entry (.computed p q))
        (left.plain :: (is ++ [right.plain, colon.plain]) ++ js)
  | closeEntries {right : Token} :
      right.lexeme = .rightBrace → Spells (.entries []) [right.plain]
  | lastEntry {right : Token} {e : PhraseEntry} {is : List Item} :
      Spells (.entry e) is → right.lexeme = .rightBrace →
      Spells (.entries [e]) (is ++ [right.plain])
  | moreEntries {comma : Token} {e : PhraseEntry} {es : List PhraseEntry} {is js : List Item} :
      Spells (.entry e) is → comma.lexeme = .comma → Spells (.entries es) js →
      Spells (.entries (e :: es)) (is ++ comma.plain :: js)

namespace Token

variable {token : Token} {rest : Text}

theorem lexeme_eq_of_fits (h : token.lexeme.Fits rest) {spelling : Text}
    (hspelled : token.terminal.base ∉ [.name, .number, .string])
    (hspelling : token.terminal.base.spellings = [spelling]) :
    token.lexeme = ⟨token.terminal, spelling⟩ := by
  have hmem := Terminal.mem_spellings_of_lengthAt hspelled h.ne_nil h.length
  rw [hspelling, List.mem_singleton] at hmem
  rw [lexeme] at hmem ⊢
  exact congrArg _ hmem

theorem isWord_of_fits (h : token.lexeme.Fits rest) (hname : token.terminal = .name) :
    IsWord token.text :=
  (h.isWord (show token.terminal.base = .name by rw [hname]; rfl)).1

end Token

theorem BinaryOp.text_of_ofText? {t : Text} {op : BinaryOp} (h : ofText? t = some op) :
    op.text = t := by
  unfold ofText? at h
  simpa using List.find?_some h

theorem UnaryOp.text_of_ofText? {t : Text} {op : UnaryOp} (h : ofText? t = some op) :
    op.text = t := by
  unfold ofText? at h
  simpa using List.find?_some h

theorem BinaryOp.not_isWord (op : BinaryOp) : ¬ IsWord op.text := by
  rintro ⟨c, tail, htext, hstart, -⟩
  have hhead : op.text.head?.any isNameStart = true := by
    rw [htext]
    exact hstart
  revert hhead
  cases op <;> decide

theorem Terminal.eq_binary_of_mem_spellings : ∀ terminal ∈ Terminal.order, ∀ op ∈ BinaryOp.all,
    followsOperand terminal = true → op.text ∈ terminal.spellings →
      terminal = (Lexeme.binary op).terminal := by
  decide

theorem Terminal.eq_unary_of_mem_spellings : ∀ op ∈ UnaryOp.all,
    (op.text = Keyword.typeofWord.text → word .typeofWord = (Lexeme.unary op).terminal) ∧
      (op.text ∈ negation.spellings → negation = (Lexeme.unary op).terminal) ∧
      (op.text ∈ additive.spellings → additive = (Lexeme.unary op).terminal) := by
  decide

theorem Terminal.of_followsOperand {terminal : Terminal} (h : followsOperand terminal = true) :
    terminal ∈ order ∧ terminal.base = terminal ∧
      (terminal ∈ [.name, .number, .string] → terminal = .name) := by
  cases terminal with
  | word keyword => cases h
  | number => cases h
  | string => cases h
  | _ => exact ⟨List.mem_of_elem_eq_true rfl, rfl, by decide⟩

namespace Token

variable {token : Token} {rest : Text}

theorem lexeme_eq_binary (h : token.lexeme.Fits rest)
    (hfollows : followsOperand token.terminal = true) {op : BinaryOp}
    (hop : BinaryOp.ofText? token.text = some op) : token.lexeme = .binary op := by
  have htext := BinaryOp.text_of_ofText? hop
  obtain ⟨hmem, hbase, hname⟩ := Terminal.of_followsOperand hfollows
  have hspelled : token.terminal ∉ [.name, .number, .string] := by
    intro hword
    apply op.not_isWord
    rw [htext]
    exact isWord_of_fits h (hname hword)
  have hspelling : token.text ∈ token.terminal.spellings := by
    rw [← hbase] at hspelled ⊢
    exact Terminal.mem_spellings_of_lengthAt hspelled h.ne_nil h.length
  have hterminal := Terminal.eq_binary_of_mem_spellings _ hmem op (by cases op <;> decide) hfollows
    (htext ▸ hspelling)
  rw [lexeme, hterminal, ← htext]
  cases op <;> rfl

theorem lexeme_eq_unary (h : token.lexeme.Fits rest)
    (hterminal : token.terminal ∈ [.word .typeofWord, .negation, .additive]) {op : UnaryOp}
    (hop : UnaryOp.ofText? token.text = some op) : token.lexeme = .unary op := by
  have htext := UnaryOp.text_of_ofText? hop
  obtain ⟨htypeof, hnegation, hadditive⟩ :=
    Terminal.eq_unary_of_mem_spellings op (by cases op <;> decide)
  have hterminal : token.terminal = (Lexeme.unary op).terminal := by
    rw [htext] at htypeof hnegation hadditive
    simp only [List.mem_cons, List.not_mem_nil, or_false] at hterminal
    rcases hterminal with hword | hword | hword
    . rw [hword]
      exact htypeof (h.keyword .typeofWord hword)
    . have hlength := h.length
      rw [show token.lexeme.terminal = .negation from hword] at hlength
      rw [hword]
      exact hnegation (Terminal.mem_spellings_of_lengthAt (by decide) h.ne_nil hlength)
    . have hlength := h.length
      rw [show token.lexeme.terminal = .additive from hword] at hlength
      rw [hword]
      exact hadditive (Terminal.mem_spellings_of_lengthAt (by decide) h.ne_nil hlength)
  rw [lexeme, hterminal, ← htext]
  cases op <;> rfl

end Token

end Expression

end PageBinding
