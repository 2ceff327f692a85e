import PageBinding.Failure
import PageBinding.Numeral

/-!
This module contains the tokens of the expression language: how far a token reaches at the start of
a text, and which of several possible tokens is taken. Which tokens are possible depends on what has
been read before, so every function that chooses one is told which are acceptable.
-/

namespace PageBinding

namespace Expression

structure Position where
  offset : Nat
  line : Nat
  column : Nat
  deriving DecidableEq, Repr

namespace Position

def start : Position :=
  ⟨0, 1, 1⟩

def place (p : Position) : Place :=
  ⟨p.line, p.column⟩

def step (p : Position) (c : CodePoint) : Position :=
  if c.is '\n' then ⟨p.offset + 1, p.line + 1, 1⟩ else ⟨p.offset + 1, p.line, p.column + 1⟩

def advance (p : Position) (t : Text) : Position :=
  t.foldl step p

theorem advance_offset (p : Position) (t : Text) : (p.advance t).offset = p.offset + t.length := by
  induction t generalizing p with
  | nil => rfl
  | cons c t ih =>
    have hstep : (p.step c).offset = p.offset + 1 := by
      unfold step
      split <;> rfl
    simp only [advance, List.foldl_cons, List.length_cons] at ih ⊢
    rw [ih, hstep]
    omega

end Position

/--
The words that stand for a value or an operator where those are acceptable.
-/
inductive Keyword where
  | trueWord
  | falseWord
  | nullWord
  | typeofWord
  deriving DecidableEq, Repr

def Keyword.text : Keyword → Text
  | .trueWord => "true"
  | .falseWord => "false"
  | .nullWord => "null"
  | .typeofWord => "typeof"

def Keyword.all : List Keyword :=
  [.trueWord, .falseWord, .nullWord, .typeofWord]

inductive Terminal where
  | name
  | number
  | string
  | word (keyword : Keyword)
  | assign
  | equality
  | conjunction
  | coalescing
  | optionalDot
  | disjunction
  | relation
  | additive
  | multiplicative
  | negation
  | leftParen
  | rightParen
  | leftBracket
  | rightBracket
  | leftBrace
  | rightBrace
  | comma
  | colon
  | semicolon
  | question
  | dot
  deriving DecidableEq, Repr

structure Token where
  terminal : Terminal
  text : Text
  start : Position
  deriving DecidableEq, Repr

namespace Token

def place (t : Token) : Place :=
  t.start.place

def stop (t : Token) : Nat :=
  t.start.offset + t.text.length

end Token

def isNameStart (c : CodePoint) : Bool :=
  c.isAsciiLetter || c.is '_' || c.is '$'

def isNamePart (c : CodePoint) : Bool :=
  isNameStart c || c.isAsciiDigit

def nameLength (t : Text) : Nat :=
  match t with
  | [] => 0
  | c :: rest => if isNameStart c then 1 + (rest.takeWhile isNamePart).length else 0

/--
The number of code points up to and including the quote that closes a string. A line feed is allowed
after a backslash only.
-/
def closingLength? (quote : CodePoint) (t : Text) : Option Nat :=
  match t with
  | [] => none
  | c :: rest =>
    if c = quote then some 1
    else if c.is '\\' then
      match rest with
      | [] => none
      | _ :: rest => (closingLength? quote rest).map (· + 2)
    else if c.is '\n' then none
    else (closingLength? quote rest).map (· + 1)

def stringLength (t : Text) : Nat :=
  match t with
  | [] => 0
  | c :: rest =>
    if c.is '\x22' || c.is '\x27' then
      match closingLength? c rest with
      | some n => n + 1
      | none => 0
    else
      0

namespace Terminal

def spellings : Terminal → List Text
  | name | number | string | word _ => []
  | assign => ["??=", "+=", "-=", "*=", "/=", "%=", "="]
  | equality => ["===", "!==", "==", "!="]
  | conjunction => ["&&"]
  | coalescing => ["??"]
  | optionalDot => ["?."]
  | disjunction => ["||"]
  | relation => ["<=", ">=", "<", ">"]
  | additive => ["+", "-"]
  | multiplicative => ["*", "/", "%"]
  | negation => ["!"]
  | leftParen => ["("]
  | rightParen => [")"]
  | leftBracket => ["["]
  | rightBracket => ["]"]
  | leftBrace => ["\x7b"]
  | rightBrace => ["\x7d"]
  | comma => [","]
  | colon => [":"]
  | semicolon => [";"]
  | question => ["?"]
  | dot => ["."]

/--
The order in which kinds of tokens are tried. The words are names first.
-/
def order : List Terminal := [
  name, number, string, assign, equality, conjunction, coalescing, optionalDot, disjunction,
  relation, additive, multiplicative, negation, leftParen, rightParen, leftBracket, rightBracket,
  leftBrace, rightBrace, comma, colon, semicolon, question, dot]

def lengthAt (terminal : Terminal) (t : Text) : Nat :=
  match terminal with
  | name => nameLength t
  | number => Numeral.length t
  | string => stringLength t
  | terminal =>
    match terminal.spellings.find? t.startsWith with
    | some spelling => spelling.length
    | none => 0

def ofName (accepts : Terminal → Bool) (t : Text) : Terminal :=
  match Keyword.all.find? fun keyword => keyword.text = t && accepts (word keyword) with
  | some keyword => word keyword
  | none => name

def scan? (accepts : Terminal → Bool) (t : Text) : Option (Terminal × Nat) :=
  match order.find? fun terminal => accepts terminal && 0 < terminal.lengthAt t with
  | some .name => some (ofName accepts (t.take (nameLength t)), nameLength t)
  | some terminal => some (terminal, terminal.lengthAt t)
  | none => none

end Terminal

def isBlank (c : CodePoint) : Bool :=
  c.is ' ' || c.is '\t' || c.is '\n' || c.is '\r' || c.val = 12

def blockLength? (t : Text) : Option Nat :=
  match t with
  | [] => none
  | c :: rest =>
    if c.is '*' then
      match rest with
      | [] => none
      | d :: _ => if d.is '/' then some 2 else (blockLength? rest).map (· + 1)
    else
      (blockLength? rest).map (· + 1)

/--
The length of the white space or of the one comment at the start of a text, or zero.
-/
def gapLength (t : Text) : Nat :=
  match t with
  | c :: d :: rest =>
    if isBlank c then (t.takeWhile isBlank).length
    else if c.is '/' && d.is '/' then 2 + (rest.takeWhile fun c => !c.is '\n').length
    else if c.is '/' && d.is '*' then
      match blockLength? rest with
      | some n => 2 + n
      | none => 0
    else 0
  | [c] => if isBlank c then 1 else 0
  | [] => 0

end Expression

end PageBinding
