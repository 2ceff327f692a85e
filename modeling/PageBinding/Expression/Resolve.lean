import PageBinding.Expression.Expr
import PageBinding.Expression.Literal
import PageBinding.Expression.Parser
import PageBinding.Limits

/-!
This module contains the second half of reading an expression: its literals get their values, and
names that are reserved words, escapes that denote nothing and trees that are too deep are refused.
-/

namespace PageBinding

variable [Limits]

namespace Expression

namespace Token

def identifier (token : Token) (shorthand : Bool) : Except Failure Identifier :=
  if isReserved token.text then .error (.parse (.keyword token.text) token.place)
  else .ok ⟨token.text, token.start.offset, token.stop, shorthand⟩

def string (token : Token) (inKey : Bool) : Except Failure Text :=
  match Literal.string token.text with
  | .ok t => .ok t
  | .error .notCodePoint => .error (.parse .invalidEscape token.place)
  | .error .tooLarge => .error (.escapeTooLarge inKey)

def key (token : Token) : Except Failure Text :=
  match token.terminal with
  | .string => token.string true
  | .number => .ok ((Literal.number token.text).dataText?.getD token.text)
  | _ => .ok token.text

end Token

mutual

/--
The expression that a phrase is. The room is how many trees may still stand inside of one another.
-/
def Phrase.resolve (room : Nat) (p : Phrase) : Except Failure Expr :=
  match room with
  | 0 => .error (.parse .tooDeep none)
  | room + 1 =>
    match p with
    | .number token => .ok (.literal (.number (Literal.number token.text)))
    | .string token => do return .literal (.text (← token.string false))
    | .bool b => .ok (.literal (.bool b))
    | .null => .ok (.literal .null)
    | .name token => do return .identifier (← token.identifier false)
    | .array items => do return .array (← resolveList room items)
    | .object entries => do return .object (← resolveEntries room entries)
    | .unary op operand => do return .unary op (← operand.resolve room)
    | .binary op left right => do
      let left ← left.resolve room
      let right ← right.resolve room
      return .binary op left right
    | .conditional test consequent alternate => do
      let test ← test.resolve room
      let consequent ← consequent.resolve room
      let alternate ← alternate.resolve room
      return .conditional test consequent alternate
    | .member object name optional => do
      return .member (← object.resolve room) name optional
    | .index object key optional => do
      let object ← object.resolve room
      let key ← key.resolve room
      return .index object key optional

def resolveList (room : Nat) (ps : List Phrase) : Except Failure (List Expr) :=
  match ps with
  | [] => .ok []
  | p :: rest => do
    let e ← p.resolve room
    let es ← resolveList room rest
    return e :: es

def PhraseEntry.resolve (room : Nat) (entry : PhraseEntry) : Except Failure Entry :=
  match entry with
  | .keyed key value => do
    let key ← key.key
    let value ← value.resolve room
    return .named key value
  | .computed key value => do
    let key ← key.resolve room
    let value ← value.resolve room
    return .computed key value
  | .shorthand name =>
    match room with
    | 0 => .error (.parse .tooDeep none)
    | _ + 1 => do
      let id ← name.identifier true
      return .named id.name (.identifier id)

def resolveEntries (room : Nat) (entries : List PhraseEntry) : Except Failure (List Entry) :=
  match entries with
  | [] => .ok []
  | entry :: rest => do
    let e ← entry.resolve room
    let es ← resolveEntries room rest
    return e :: es

end

/--
The effect that a clause is. The value of an assignment is looked at before its target.
-/
def Clause.resolve (clause : Clause) : Except Failure Effect :=
  match clause with
  | .assignment target operator value => do
    let value ← value.resolve Limits.maxDepth
    let target ← target.identifier false
    return .assignment target operator.text value
  | .call name args => do return .call name.text (← resolveList Limits.maxDepth args)

def parse (t : Text) : Except Failure Expr := do
  let phrase ← Phrase.read t
  phrase.resolve Limits.maxDepth

def parseAction (t : Text) : Except Failure (List Effect) := do
  let clauses ← Clause.read t
  clauses.mapM Clause.resolve

end Expression

end PageBinding
