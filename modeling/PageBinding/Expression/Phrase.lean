import PageBinding.Expression.Operator
import PageBinding.Expression.Token

/-!
This module contains phrases: expressions as they are written, with the tokens of their literals and
names still unread.
-/

namespace PageBinding

namespace Expression

mutual

/--
An expression as it is written. Parentheses leave no trace.
-/
inductive Phrase where
  | number (token : Token)
  | string (token : Token)
  | bool (b : Bool)
  | null
  | name (token : Token)
  | array (items : List Phrase)
  | object (entries : List PhraseEntry)
  | unary (op : UnaryOp) (operand : Phrase)
  | binary (op : BinaryOp) (left right : Phrase)
  | conditional (test consequent alternate : Phrase)
  | member (object : Phrase) (name : Text) (optional : Bool)
  | index (object key : Phrase) (optional : Bool)

inductive PhraseEntry where
  | keyed (key : Token) (value : Phrase)
  | computed (key value : Phrase)
  | shorthand (name : Token)

end

instance : Inhabited Phrase := ⟨.null⟩

inductive Clause where
  | assignment (target operator : Token) (value : Phrase)
  | call (name : Token) (args : List Phrase)

end Expression

end PageBinding
