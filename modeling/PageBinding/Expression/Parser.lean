import PageBinding.Expression.Phrase

/-!
This module contains the parser. It reads a text once from left to right and keeps what is not
complete yet on a stack of frames. What may come next follows from its state and from the innermost
frame alone, and only those tokens are looked for: where an operand has ended, `==` is one token,
and after the name at the start of an effect it is a lone `=` with another one behind it.
-/

namespace PageBinding

namespace Expression

inductive Frame where
  | unary (op : UnaryOp)
  | binary (op : BinaryOp) (left : Phrase)
  | test (test : Phrase)
  | alternate (test consequent : Phrase)
  | group
  /-- An array with the items read so far, last one first. -/
  | array (items : List Phrase)
  | index (object : Phrase) (optional : Bool)
  /-- The entries of an object read so far, last one first, and a key up to its colon. -/
  | value (entries : List PhraseEntry) (key : Token)
  | computedValue (entries : List PhraseEntry) (key : Phrase)
  /-- The entries of an object read so far and the bracket of a key. -/
  | computedKey (entries : List PhraseEntry)
  | assignment (target operator : Token)
  /-- A call with the arguments read so far, last one first. -/
  | call (name : Token) (args : List Phrase)

inductive State where
  | operand
  | ended (e : Phrase)
  | member (object : Phrase) (optional : Bool)
  | entry (entries : List PhraseEntry)
  | entryName (entries : List PhraseEntry) (name : Token)
  /-- A string, number or keyword at the start of an entry has been read. -/
  | entryKey (entries : List PhraseEntry) (key : Token)
  | entryBracket (entries : List PhraseEntry) (key : Phrase)
  | effect
  | effectName (name : Token)

/--
All that the parser keeps: its state, the started parts with the innermost one first, and the
effects that are complete, last one first.
-/
structure Config where
  state : State
  frames : List Frame
  effects : List Clause

namespace Config

def expression : Config :=
  ⟨.operand, [], []⟩

def action : Config :=
  ⟨.effect, [], []⟩

end Config

def followsOperand : Terminal → Bool
  | .multiplicative | .additive | .relation | .equality | .conjunction | .disjunction | .coalescing
  | .question | .dot | .optionalDot | .leftBracket | .rightParen | .rightBracket | .rightBrace
  | .comma | .colon | .name | .semicolon => true
  | _ => false

def startsOperand : Terminal → Bool
  | .number | .string | .name | .word _ | .leftParen | .leftBracket | .leftBrace | .negation
  | .additive => true
  | _ => false

def namesProperty : Terminal → Bool
  | .name | .word _ => true
  | _ => false

namespace Config

def accepts (config : Config) (terminal : Terminal) : Bool :=
  match config.state with
  | .operand =>
    startsOperand terminal ||
      match config.frames with
      | .array _ :: _ => terminal = .rightBracket
      | .call .. :: _ => terminal = .rightParen
      | _ => false
  | .ended _ => followsOperand terminal
  | .member _ optional => namesProperty terminal || (optional && terminal = .leftBracket)
  | .entry _ =>
    namesProperty terminal || terminal = .string || terminal = .number ||
      terminal = .leftBracket || terminal = .rightBrace
  | .entryName .. => terminal = .colon || terminal = .comma || terminal = .rightBrace
  | .entryKey .. | .entryBracket .. => terminal = .colon
  | .effect => terminal = .name || terminal = .semicolon
  | .effectName _ => terminal = .assign || terminal = .leftParen

/--
Complete the innermost operators around an operand: those that bind at least as tightly as `level`,
and at level zero also the condition that the operand is the last part of.
-/
def settle (level : Nat) (e : Phrase) (frames : List Frame) : Phrase × List Frame :=
  match frames with
  | .unary op :: rest => settle level (.unary op e) rest
  | .binary op left :: rest =>
    if level ≤ op.level then settle level (.binary op left e) rest else (e, frames)
  | .alternate test consequent :: rest =>
    if level = 0 then settle level (.conditional test consequent e) rest else (e, frames)
  | _ => (e, frames)

def stepOperand (config : Config) (token : Token) : Option Config :=
  let push (frame : Frame) : Option Config :=
    some { config with state := .operand, frames := frame :: config.frames }
  let finish (e : Phrase) : Option Config := some { config with state := .ended e }
  match token.terminal, config.frames with
  | .number, _ => finish (.number token)
  | .string, _ => finish (.string token)
  | .name, _ => finish (.name token)
  | .word .trueWord, _ => finish (.bool true)
  | .word .falseWord, _ => finish (.bool false)
  | .word .nullWord, _ => finish .null
  | .word .typeofWord, _ | .negation, _ | .additive, _ =>
    (UnaryOp.ofText? token.text).bind fun op => push (.unary op)
  | .leftParen, _ => push .group
  | .leftBracket, _ => push (.array [])
  | .leftBrace, _ => some { config with state := .entry [] }
  | .rightBracket, .array items :: rest =>
    some { config with state := .ended (.array items.reverse), frames := rest }
  | .rightParen, .call name args :: rest =>
    some {
      state := .effect
      frames := rest
      effects := .call name args.reverse :: config.effects }
  | _, _ => none

/--
The configuration after a token that ends the expression `e`, which belongs to the innermost frame.
-/
def stepSettled (config : Config) (e : Phrase) (token : Token) : Option Config :=
  match token.terminal, config.frames with
  | .colon, .test test :: rest =>
    some { config with state := .operand, frames := .alternate test e :: rest }
  | .comma, .array items :: rest =>
    some { config with state := .operand, frames := .array (e :: items) :: rest }
  | .comma, .call name args :: rest =>
    some { config with state := .operand, frames := .call name (e :: args) :: rest }
  | .comma, .value entries key :: rest =>
    some { config with state := .entry (.keyed key e :: entries), frames := rest }
  | .comma, .computedValue entries key :: rest =>
    some { config with state := .entry (.computed key e :: entries), frames := rest }
  | .rightBracket, .array items :: rest =>
    some { config with state := .ended (.array (e :: items).reverse), frames := rest }
  | .rightBracket, .index object optional :: rest =>
    some { config with state := .ended (.index object e optional), frames := rest }
  | .rightBracket, .computedKey entries :: rest =>
    some { config with state := .entryBracket entries e, frames := rest }
  | .rightParen, .group :: rest => some { config with state := .ended e, frames := rest }
  | .rightParen, .call name args :: rest =>
    some {
      state := .effect
      frames := rest
      effects := .call name (e :: args).reverse :: config.effects }
  | .rightBrace, .value entries key :: rest =>
    let entries := (PhraseEntry.keyed key e :: entries).reverse
    some { config with state := .ended (.object entries), frames := rest }
  | .rightBrace, .computedValue entries key :: rest =>
    let entries := (PhraseEntry.computed key e :: entries).reverse
    some { config with state := .ended (.object entries), frames := rest }
  | .semicolon, .assignment target operator :: rest =>
    some {
      state := .effect
      frames := rest
      effects := .assignment target operator e :: config.effects }
  | .name, .assignment target operator :: rest =>
    some {
      state := .effectName token
      frames := rest
      effects := .assignment target operator e :: config.effects }
  | _, _ => none

def stepEnded (config : Config) (e : Phrase) (token : Token) : Option Config :=
  match BinaryOp.ofText? token.text with
  | some op =>
    let (left, rest) := settle op.level e config.frames
    some { config with state := .operand, frames := .binary op left :: rest }
  | none =>
    match token.terminal with
    | .dot => some { config with state := .member e false }
    | .optionalDot => some { config with state := .member e true }
    | .leftBracket =>
      some { config with state := .operand, frames := .index e false :: config.frames }
    | .question =>
      let (test, rest) := settle 1 e config.frames
      some { config with state := .operand, frames := .test test :: rest }
    | _ =>
      let (e, frames) := settle 0 e config.frames
      { config with frames }.stepSettled e token

def stepBetween (config : Config) (token : Token) : Option Config :=
  match config.state, token.terminal with
  | .member object optional, .name | .member object optional, .word _ =>
    some { config with state := .ended (.member object token.text optional) }
  | .member object true, .leftBracket =>
    some { config with state := .operand, frames := .index object true :: config.frames }
  | .entry entries, .name => some { config with state := .entryName entries token }
  | .entry entries, .word _ | .entry entries, .string | .entry entries, .number =>
    some { config with state := .entryKey entries token }
  | .entry entries, .leftBracket =>
    some { config with state := .operand, frames := .computedKey entries :: config.frames }
  | .entry entries, .rightBrace => some { config with state := .ended (.object entries.reverse) }
  | .entryName entries name, .colon | .entryKey entries name, .colon =>
    some { config with state := .operand, frames := .value entries name :: config.frames }
  | .entryName entries name, .comma =>
    some { config with state := .entry (.shorthand name :: entries) }
  | .entryName entries name, .rightBrace =>
    some { config with state := .ended (.object (PhraseEntry.shorthand name :: entries).reverse) }
  | .entryBracket entries key, .colon =>
    some { config with state := .operand, frames := .computedValue entries key :: config.frames }
  | .effect, .name => some { config with state := .effectName token }
  | .effect, .semicolon => some config
  | .effectName name, .assign =>
    some { config with state := .operand, frames := .assignment name token :: config.frames }
  | .effectName name, .leftParen =>
    some { config with state := .operand, frames := .call name [] :: config.frames }
  | _, _ => none

def step (config : Config) (token : Token) : Option Config :=
  match config.state with
  | .operand => config.stepOperand token
  | .ended e => config.stepEnded e token
  | _ => config.stepBetween token

def unexpected (token : Token) (reserved : Text → Bool) : ParseFault :=
  match token.terminal with
  | .leftParen => .call
  | .assign => .assignment
  | .name => if reserved token.text then .keyword token.text else .token token.text
  | _ => .token token.text

end Config

/--
The words that can never be names. Most of them start statements of other languages.
-/
def reservedWords : List Text :=
  List.map Text.ofString [
    "await", "break", "case", "catch", "class", "const", "continue", "debugger", "default",
    "delete", "do", "else", "enum", "export", "extends", "finally", "for", "function", "if",
    "import", "in", "instanceof", "let", "new", "return", "super", "switch", "this", "throw", "try",
    "var", "void", "while", "with", "yield"]

def isReserved (word : Text) : Bool :=
  word ∈ reservedWords

namespace Config

/--
The failure at a text that no acceptable token starts: the token that would be there if all tokens
were acceptable, or else its first code point.
-/
def stray (position : Position) (c : CodePoint) (rest : Text) : Failure :=
  match Terminal.scan? (fun _ => true) (c :: rest) with
  | some (terminal, length) =>
    let token : Token := ⟨terminal, (c :: rest).take length, position⟩
    .parse (unexpected token isReserved) position.place
  | none => .parse (.character c) position.place

/--
Read a text from a position on. The place is where the last token starts, for a text that ends too
early; the parser itself does not need it.
-/
def run (config : Config) (position : Position) (last : Place) (t : Text) :
    Except Failure (Config × Place) :=
  match t with
  | [] => .ok (config, last)
  | c :: rest =>
    match gapLength (c :: rest) with
    | n + 1 => run config (position.advance (c :: rest.take n)) last (rest.drop n)
    | 0 =>
      match Terminal.scan? config.accepts (c :: rest) with
      | some (terminal, n + 1) =>
        let token : Token := ⟨terminal, c :: rest.take n, position⟩
        match config.step token with
        | some config => run config (position.advance token.text) token.place (rest.drop n)
        | none => .error (.parse (unexpected token isReserved) token.place)
      | _ => .error (stray position c rest)
termination_by t.length
decreasing_by
  all_goals simp only [List.length_drop, List.length_cons]; omega

end Config

def Phrase.read (t : Text) : Except Failure Phrase := do
  let (config, last) ← Config.expression.run .start Position.start.place t
  match config.state with
  | .ended e =>
    match Config.settle 0 e config.frames with
    | (e, []) => return e
    | _ => throw (.parse .unexpectedEnd last)
  | _ => throw (.parse .unexpectedEnd last)

def Clause.read (t : Text) : Except Failure (List Clause) := do
  let (config, last) ← Config.action.run .start Position.start.place t
  match config.state with
  | .effect => return config.effects.reverse
  | .ended e =>
    match Config.settle 0 e config.frames with
    | (e, [.assignment target operator]) =>
      return (Clause.assignment target operator e :: config.effects).reverse
    | _ => throw (.parse .unexpectedEnd last)
  | _ => throw (.parse .unexpectedEnd last)

end Expression

end PageBinding
