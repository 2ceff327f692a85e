import PageBinding.Expression.Parser

/-!
This module contains the steps of the parser from token to token: which tokens it admits, and what
an operator settles of the operand in front of it.
-/

namespace PageBinding

namespace Expression

namespace Config

/--
A token may come next: its kind is looked for, and it is no word that is looked for as such.
-/
structure Admits (config : Config) (token : Token) : Prop where
  accepts : config.accepts token.terminal = true
  keyword : token.terminal = .name →
    ∀ keyword : Keyword, keyword.text = token.text → config.accepts (.word keyword) = false

inductive Steps : Config → List Token → Config → Prop where
  | refl (config : Config) : Steps config [] config
  | step {config next last : Config} {token : Token} {tokens : List Token} :
      config.Admits token → config.step token = some next → Steps next tokens last →
      Steps config (token :: tokens) last

namespace Steps

variable {a b c : Config} {token : Token} {ts us : List Token}

theorem append (h : Steps a ts b) (h' : Steps b us c) : Steps a (ts ++ us) c := by
  induction h with
  | refl => exact h'
  | step hadmits hstep _ ih => exact .step hadmits hstep (ih h')

theorem cons (haccepts : a.accepts token.terminal = true) (hname : token.terminal ≠ .name)
    (hstep : a.step token = some b) (h : Steps b ts c) : Steps a (token :: ts) c :=
  .step ⟨haccepts, fun heq => absurd heq hname⟩ hstep h

theorem single (haccepts : a.accepts token.terminal = true) (hname : token.terminal ≠ .name)
    (hstep : a.step token = some b) : Steps a [token] b :=
  cons haccepts hname hstep (.refl b)

end Steps

end Config

structure Lexeme where
  terminal : Terminal
  text : Text
  deriving DecidableEq, Repr

def Token.lexeme (token : Token) : Lexeme :=
  ⟨token.terminal, token.text⟩

namespace Lexeme

def token (lexeme : Lexeme) (start : Position) : Token :=
  ⟨lexeme.terminal, lexeme.text, start⟩

def null : Lexeme := ⟨.word .nullWord, "null"⟩
def leftParen : Lexeme := ⟨.leftParen, "("⟩
def rightParen : Lexeme := ⟨.rightParen, ")"⟩
def leftBracket : Lexeme := ⟨.leftBracket, "["⟩
def rightBracket : Lexeme := ⟨.rightBracket, "]"⟩
def leftBrace : Lexeme := ⟨.leftBrace, "\x7b"⟩
def rightBrace : Lexeme := ⟨.rightBrace, "\x7d"⟩
def comma : Lexeme := ⟨.comma, ","⟩
def colon : Lexeme := ⟨.colon, ":"⟩
def semicolon : Lexeme := ⟨.semicolon, ";"⟩
def question : Lexeme := ⟨.question, "?"⟩
def dot : Lexeme := ⟨.dot, "."⟩
def optionalDot : Lexeme := ⟨.optionalDot, "?."⟩

def bool : Bool → Lexeme
  | true => ⟨.word .trueWord, "true"⟩
  | false => ⟨.word .falseWord, "false"⟩

def unary (op : UnaryOp) : Lexeme :=
  match op with
  | .not => ⟨.negation, op.text⟩
  | .plus | .minus => ⟨.additive, op.text⟩
  | .typeof => ⟨.word .typeofWord, op.text⟩

def binary (op : BinaryOp) : Lexeme :=
  match op with
  | .coalesce => ⟨.coalescing, op.text⟩
  | .or => ⟨.disjunction, op.text⟩
  | .and => ⟨.conjunction, op.text⟩
  | .strictEqual | .strictUnequal | .equal | .unequal => ⟨.equality, op.text⟩
  | .atMost | .atLeast | .below | .above => ⟨.relation, op.text⟩
  | .add | .sub => ⟨.additive, op.text⟩
  | .mul | .div | .mod => ⟨.multiplicative, op.text⟩

def access (optional : Bool) : Lexeme :=
  if optional then optionalDot else dot

end Lexeme

def Frame.closes (level : Nat) : Frame → Bool
  | .unary _ => true
  | .binary op _ => level ≤ op.level
  | .alternate .. => level = 0
  | _ => false

namespace Config

theorem settle_eq_self {level : Nat} {frames : List Frame}
    (h : ∀ frame ∈ frames.head?, frame.closes level = false) (e : Phrase) :
    settle level e frames = (e, frames) := by
  cases frames with
  | nil => rfl
  | cons frame rest =>
    have hframe := h frame rfl
    cases frame with
    | binary op left =>
      have hle : ¬ level ≤ op.level := of_decide_eq_false hframe
      rw [settle, if_neg hle]
    | alternate test consequent =>
      have hne : ¬ level = 0 := of_decide_eq_false hframe
      rw [settle, if_neg hne]
    | unary op => exact absurd hframe (by simp [Frame.closes])
    | _ => rfl

/--
An operand of the given level can stand inside of the frames: no operator in it completes them.
Operands that bind as tightly as a unary operator hold no such operator.
-/
def Awaits (level : Nat) (frames : List Frame) : Prop :=
  level ≤ 7 → ∀ frame ∈ frames.head?, frame.closes (max level 1) = false

theorem Awaits.nil (level : Nat) : Awaits level [] :=
  fun _ _ hmem => absurd hmem (Option.not_mem_none _)

theorem Awaits.mono {low high : Nat} {frames : List Frame} (h : Awaits low frames)
    (hle : low ≤ high) : Awaits high frames := by
  intro hhigh frame hmem
  have hlow := h (by omega) frame hmem
  cases frame with
  | binary op left =>
    simp only [Frame.closes, decide_eq_false_iff_not] at hlow ⊢
    omega
  | alternate test consequent =>
    simp only [Frame.closes, decide_eq_false_iff_not]
    omega
  | _ => exact hlow

theorem Awaits.settle_eq {level : Nat} {frames : List Frame} (h : Awaits level frames)
    (hlow : 1 ≤ level) (hhigh : level ≤ 7) (e : Phrase) :
    settle level e frames = (e, frames) := by
  apply settle_eq_self
  intro frame hmem
  have hframe := h hhigh frame hmem
  rwa [Nat.max_eq_left hlow] at hframe

end Config

end Expression

end PageBinding
