import PageBinding.Text

/-!
This module contains the operators of the expression language.
-/

namespace PageBinding

namespace Expression

inductive UnaryOp where
  | not
  | plus
  | minus
  | typeof
  deriving DecidableEq, Repr

namespace UnaryOp

def text : UnaryOp → Text
  | .not => "!"
  | .plus => "+"
  | .minus => "-"
  | .typeof => "typeof"

def all : List UnaryOp :=
  [.not, .plus, .minus, .typeof]

def ofText? (t : Text) : Option UnaryOp :=
  all.find? (·.text = t)

theorem ofText?_text (op : UnaryOp) : ofText? op.text = some op := by
  cases op <;> rfl

end UnaryOp

inductive BinaryOp where
  | coalesce
  | or
  | and
  | strictEqual
  | strictUnequal
  | equal
  | unequal
  | atMost
  | atLeast
  | below
  | above
  | add
  | sub
  | mul
  | div
  | mod
  deriving DecidableEq, Repr

namespace BinaryOp

def text : BinaryOp → Text
  | .coalesce => "??"
  | .or => "||"
  | .and => "&&"
  | .strictEqual => "==="
  | .strictUnequal => "!=="
  | .equal => "=="
  | .unequal => "!="
  | .atMost => "<="
  | .atLeast => ">="
  | .below => "<"
  | .above => ">"
  | .add => "+"
  | .sub => "-"
  | .mul => "*"
  | .div => "/"
  | .mod => "%"

def all : List BinaryOp := [
  .coalesce, .or, .and, .strictEqual, .strictUnequal, .equal, .unequal, .atMost, .atLeast, .below,
  .above, .add, .sub, .mul, .div, .mod]

def ofText? (t : Text) : Option BinaryOp :=
  all.find? (·.text = t)

theorem ofText?_text (op : BinaryOp) : ofText? op.text = some op := by
  cases op <;> rfl

/--
How tightly an operator binds. An operand of an operator is made of operators that bind tighter, or
as tightly if they stand to its left.
-/
def level : BinaryOp → Nat
  | .coalesce => 1
  | .or => 2
  | .and => 3
  | .strictEqual | .strictUnequal | .equal | .unequal => 4
  | .atMost | .atLeast | .below | .above => 5
  | .add | .sub => 6
  | .mul | .div | .mod => 7

theorem level_pos (op : BinaryOp) : 0 < op.level := by
  cases op <;> decide

end BinaryOp

end Expression

end PageBinding
