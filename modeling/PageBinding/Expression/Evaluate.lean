import PageBinding.Expression.Names
import PageBinding.Value.Json

/-!
This module contains the evaluation of expressions without variables to data.
-/

namespace PageBinding

variable [Limits]

namespace Value

def kind : Value → Kind
  | .bool _ => .boolean
  | .number _ => .number
  | .text _ => .string
  | .null | .list _ | .object _ => .object

end Value

namespace Expression

def failureOfFault : Number.Fault → Failure
  | .notFinite => .evaluation .notFinite
  | .divisionByZero => .evaluation .divisionByZero
  | .operandTooLarge => .operandTooLarge
  | .quotientTooLarge => .quotientTooLarge
  | .outsideDomain => .outsideDomain

def ofArithmetic {α : Type} (result : Except Number.Fault α) : Except Failure α :=
  result.mapError failureOfFault

def truthy (v : Value) : Except Failure Bool :=
  match v with
  | .null => .ok false
  | .bool b => .ok b
  | .number n => ofArithmetic n.isTruthy
  | .text t => .ok (!t.isEmpty)
  | .list _ | .object _ => .ok true

mutual

/--
The text of a piece of data in string concatenation and as a key.
-/
def plainText (v : Value) : Except Failure Text :=
  match v with
  | .null => .ok "null"
  | .bool b => .ok (if b then "true" else "false")
  | .number n => ofArithmetic n.plainText
  | .text t => .ok t
  | .list items => do return Text.join "," (← plainTexts items)
  | .object _ => .ok "[object Object]"

/--
The texts of the items of a list. A null item has none.
-/
def plainTexts (items : List Value) : Except Failure (List Text) :=
  match items with
  | [] => .ok []
  | v :: rest => do
    let t ← if v = .null then .ok [] else plainText v
    let ts ← plainTexts rest
    return t :: ts

end

/--
Whether two pieces of data are equal. Lists and objects are only equal to themselves, and no two
operands are the same list or object.
-/
def strictEqual (a b : Value) : Bool :=
  match a, b with
  | .null, .null => true
  | .bool x, .bool y => x == y
  | .number x, .number y => x.agrees y
  | .text x, .text y => x == y
  | _, _ => false

def applyUnary (op : UnaryOp) (v : Value) : Except Failure Value :=
  match op, v with
  | .not, v => do return .bool !(← truthy v)
  | .typeof, v => .ok (.text v.kind.name)
  | .plus, .number n => .ok (.number n)
  | .minus, .number n => .ok (.number n.neg)
  | op, v => .error (.evaluation (.operand op.text v.kind))

def applyComparison (op : BinaryOp) (a b : Value) (holds : Ordering → Bool) :
    Except Failure Value :=
  match a, b with
  | .number x, .number y =>
    .ok (.bool (match x.compare? y with
      | some order => holds order
      | none => false))
  | .text x, .text y => .ok (.bool (holds (compareOfLessAndEq x y)))
  | a, b => .error (.evaluation (.incomparable op.text a.kind b.kind))

def applyArithmetic (op : BinaryOp) (a b : Value)
    (calculate : Number → Number → Except Number.Fault Number) : Except Failure Value :=
  match a, b with
  | .number x, .number y => do return .number (← ofArithmetic (calculate x y))
  | a, b => .error (.evaluation (.operands op.text a.kind b.kind))

/--
The result of an operator on two operands. The operators that may leave out their right operand
return it from here.
-/
def applyBinary (op : BinaryOp) (a b : Value) : Except Failure Value :=
  match op with
  | .and | .or | .coalesce => .ok b
  | .equal | .strictEqual => .ok (.bool (strictEqual a b))
  | .unequal | .strictUnequal => .ok (.bool !(strictEqual a b))
  | .below => applyComparison op a b (· == .lt)
  | .atMost => applyComparison op a b (· != .gt)
  | .above => applyComparison op a b (· == .gt)
  | .atLeast => applyComparison op a b (· != .lt)
  | .sub => applyArithmetic op a b Number.sub
  | .mul => applyArithmetic op a b Number.mul
  | .div => applyArithmetic op a b Number.div
  | .mod => applyArithmetic op a b Number.mod
  | .add =>
    match a, b with
    | .text _, _ | _, .text _ => do
      let x ← plainText a
      let y ← plainText b
      return .text (x ++ y)
    | _, _ => applyArithmetic op a b Number.add

def shortCircuits (op : BinaryOp) (left : Value) : Except Failure Bool :=
  match op with
  | .and => do return !(← truthy left)
  | .or => truthy left
  | .coalesce => .ok (left ≠ .null)
  | _ => .ok false

/--
The index that a key denotes: an integer, a whole number, or a text of digits.
-/
def index? (key : Value) : Except Failure (Option Int) :=
  match key with
  | .number (.int i) => .ok (some i)
  | .number (.float x) => .ok x.toInt?
  | .text t =>
    if t.isEmpty || !t.all CodePoint.isDigit then .ok none else
    let decimals := t.takeWhile CodePoint.isDecimal
    if Number.maxDigits < decimals.length then .error (.numeralTooLong (some decimals.length))
    else if decimals.length < t.length then .error (.notNumeral t)
    else .ok (some (Text.decimalValue t))
  | _ => .ok none

def itemAt? {α : Type} (items : List α) (index : Int) : Option α :=
  if 0 ≤ index then items[index.toNat]? else none

def sequenceProperty {α : Type} (items : List α) (wrap : α → Value) (key : Value) :
    Except Failure Value :=
  if key = .text "length" then .ok (.number (.int items.length)) else do
    match ← index? key with
    | some i => return ((itemAt? items i).map wrap).getD .null
    | none => return .null

def property (v key : Value) : Except Failure Value :=
  match v with
  | .text t => sequenceProperty t (fun c => .text [c]) key
  | .list items => sequenceProperty items id key
  | .object entries => do return (Entries.lookup (← plainText key) entries).getD .null
  | _ => .ok .null

mutual

def Expr.evaluate (e : Expr) : Except Failure Value :=
  match e with
  | .literal v => .ok v
  | .identifier id => .error (.dependsOnVariables [id.name])
  | .array items => do return .list (← evaluateList items)
  | .object entries => do return .object (Entries.ofPairs (← evaluateEntries entries))
  | .unary op operand => do applyUnary op (← operand.evaluate)
  | .binary op left right => do
    let a ← left.evaluate
    if ← shortCircuits op a then return a
    applyBinary op a (← right.evaluate)
  | .conditional test consequent alternate => do
    if ← truthy (← test.evaluate) then consequent.evaluate else alternate.evaluate
  | .member object name optional => do
    let v ← object.evaluate
    if v = .null then nullProperty optional else property v (.text name)
  | .index object key optional => do
    let v ← object.evaluate
    if v = .null then nullProperty optional else property v (← key.evaluate)
where
  nullProperty (optional : Bool) : Except Failure Value :=
    if optional then .ok .null else .error (.evaluation .propertyOfNull)

def evaluateList (es : List Expr) : Except Failure (List Value) :=
  match es with
  | [] => .ok []
  | e :: rest => do
    let v ← e.evaluate
    let vs ← evaluateList rest
    return v :: vs

def evaluateEntry (entry : Entry) : Except Failure (Text × Value) :=
  match entry with
  | .named key value => do return (key, ← value.evaluate)
  | .computed key value => do
    let key ← plainText (← key.evaluate)
    return (key, ← value.evaluate)

def evaluateEntries (entries : List Entry) : Except Failure (List (Text × Value)) :=
  match entries with
  | [] => .ok []
  | entry :: rest => do
    let v ← evaluateEntry entry
    let vs ← evaluateEntries rest
    return v :: vs

end

mutual

/--
Refuse data that has no JSON text: infinite numbers and integers of too many digits.
-/
def checkData (v : Value) : Except Failure Unit :=
  match v with
  | .number (.int i) =>
    if Number.fitsText i.natAbs then .ok () else .error (.evaluation .tooManyDigits)
  | .number (.float x) => if x.isFinite then .ok () else .error (.evaluation .outOfRange)
  | .list items => checkItems items
  | .object entries => checkEntries entries
  | _ => .ok ()

def checkItems (items : List Value) : Except Failure Unit :=
  match items with
  | [] => .ok ()
  | v :: rest => do
    checkData v
    checkItems rest

def checkEntries (entries : List (Text × Value)) : Except Failure Unit :=
  match entries with
  | [] => .ok ()
  | (_, v) :: rest => do
    checkData v
    checkEntries rest

end

/--
The data that a text denotes. A text with identifiers denotes none, even where their values would
not matter.
-/
def evaluate (t : Text) : Except Failure Value := do
  if t.isBlank then throw (.evaluation .blank)
  let e ← parse t
  let names := Text.distinct (e.identifiers.map Identifier.name)
  if !names.isEmpty then throw (.dependsOnVariables names)
  let v ← e.evaluate
  checkData v
  return v

/--
The text that evaluates to a piece of data. Lists and objects are spread over lines.
-/
def format (v : Value) : Except Failure Text :=
  match v.json? (some 0) with
  | some t => .ok t
  | none => .error (.numeralTooLong none)

def previewLength : Nat :=
  64

def preview (v : Value) : Except Failure Text :=
  match v.json? none with
  | some t =>
    .ok (if t.length ≤ previewLength then t else Text.concat [t.take (previewLength - 1), "…"])
  | none => .error (.numeralTooLong none)

end Expression

end PageBinding
