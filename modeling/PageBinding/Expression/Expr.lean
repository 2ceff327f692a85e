import PageBinding.Expression.Operator
import PageBinding.Value

/-!
This module contains expressions and actions as trees, and the identifiers that occur in them.
-/

namespace PageBinding

namespace Expression

/--
An occurrence of a name as an operand or as the target of an assignment, with the offsets of its
first code point and of the one after its last. A shorthand is an entry of an object whose key is
the same name.
-/
structure Identifier where
  name : Text
  start : Nat
  stop : Nat
  shorthand : Bool
  deriving DecidableEq, Repr

mutual

inductive Expr where
  | literal (value : Value)
  | identifier (id : Identifier)
  | array (items : List Expr)
  | object (entries : List Entry)
  | unary (op : UnaryOp) (operand : Expr)
  | binary (op : BinaryOp) (left right : Expr)
  | conditional (test consequent alternate : Expr)
  | member (object : Expr) (name : Text) (optional : Bool)
  | index (object key : Expr) (optional : Bool)
  deriving Repr

inductive Entry where
  | named (key : Text) (value : Expr)
  | computed (key value : Expr)
  deriving Repr

end

instance : Inhabited Expr := ⟨.literal .null⟩

inductive Effect where
  | assignment (target : Identifier) (operator : Text) (value : Expr)
  | call (name : Text) (args : List Expr)
  deriving Repr

mutual

def Expr.identifiers (e : Expr) : List Identifier :=
  match e with
  | .literal _ => []
  | .identifier id => [id]
  | .array items => identifiersOfList items
  | .object entries => identifiersOfEntries entries
  | .unary _ operand => operand.identifiers
  | .binary _ left right => left.identifiers ++ right.identifiers
  | .conditional test consequent alternate =>
    test.identifiers ++ consequent.identifiers ++ alternate.identifiers
  | .member object _ _ => object.identifiers
  | .index object key _ => object.identifiers ++ key.identifiers

def identifiersOfList (es : List Expr) : List Identifier :=
  match es with
  | [] => []
  | e :: rest => e.identifiers ++ identifiersOfList rest

def identifiersOfEntry (entry : Entry) : List Identifier :=
  match entry with
  | .named _ value => value.identifiers
  | .computed key value => key.identifiers ++ value.identifiers

def identifiersOfEntries (entries : List Entry) : List Identifier :=
  match entries with
  | [] => []
  | entry :: rest => identifiersOfEntry entry ++ identifiersOfEntries rest

end

def Effect.identifiers : Effect → List Identifier
  | .assignment target _ value => target :: value.identifiers
  | .call _ args => identifiersOfList args

def identifiersOfEffects (effects : List Effect) : List Identifier :=
  effects.flatMap Effect.identifiers

end Expression

end PageBinding
