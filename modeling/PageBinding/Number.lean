import PageBinding.Binary64

/-!
This module contains the numbers of the expression language: integers of any size and binary
floating point numbers, which mix in arithmetic. An operation on two integers is exact where its
result is an integer; every other operation is done on floating point numbers and ends in an integer
again where the result is a whole number below `2 ^ 53`.
-/

namespace PageBinding

inductive Number where
  | int (i : Int)
  | float (x : Binary64)
  deriving DecidableEq, Repr

namespace Number

inductive Fault where
  | notFinite
  | divisionByZero
  | operandTooLarge
  | quotientTooLarge
  | outsideDomain
  deriving DecidableEq, Repr

/--
The bound below which the whole numbers that come out of arithmetic are integers.
-/
def wholeBound : Nat :=
  Nat.pow 2 53

def maxDigits : Nat :=
  4300

def fitsText (n : Nat) : Bool :=
  n < Nat.pow 10 maxDigits

def rounded (fault : Fault) : Binary64 → Except Fault Binary64
  | .finite negative rank => .ok (.finite negative rank)
  | _ => .error fault

def toBinary64 : Number → Except Fault Binary64
  | .float x => .ok x
  | .int i => rounded .operandTooLarge (Binary64.ofInt i)

/--
A floating point number as the result of arithmetic, which must be finite. It becomes an integer
where it is a whole number below `wholeBound`.
-/
def normalize (x : Binary64) : Except Fault Number :=
  if x.isFinite then
    match x.toInt? with
    | some i => .ok (if i.natAbs < wholeBound then .int i else .float x)
    | none => .ok (.float x)
  else
    .error .notFinite

def onBinary64 (op : Binary64 → Binary64 → Binary64) (a b : Number) : Except Fault Number := do
  let x ← a.toBinary64
  let y ← b.toBinary64
  normalize (op x y)

def neg : Number → Number
  | .int i => .int (-i)
  | .float x => .float x.neg

def add : Number → Number → Except Fault Number
  | .int i, .int j => .ok (.int (i + j))
  | a, b => onBinary64 Binary64.add a b

def sub : Number → Number → Except Fault Number
  | .int i, .int j => .ok (.int (i - j))
  | a, b => onBinary64 Binary64.sub a b

def mul : Number → Number → Except Fault Number
  | .int i, .int j => .ok (.int (i * j))
  | a, b => onBinary64 Binary64.mul a b

def isZero : Number → Bool
  | .int i => i = 0
  | .float x => x.isZero

/--
The quotient of two numbers: exact for integers of which the second divides the first.
-/
def div (a b : Number) : Except Fault Number :=
  if b.isZero then .error .divisionByZero else
  match a, b with
  | .int i, .int j =>
    if i % j = 0 then .ok (.int (i / j)) else
    let quotient := Binary64.ofRatio ((i < 0) != (j < 0)) i.natAbs j.natAbs
    rounded .quotientTooLarge quotient >>= normalize
  | a, b => onBinary64 Binary64.div a b

def mod (a b : Number) : Except Fault Number :=
  if b.isZero then .error .divisionByZero else
  match a, b with
  | .int i, .int j => .ok (.int (i.tmod j))
  | a, b => do
    let x ← a.toBinary64
    let y ← b.toBinary64
    if x matches .infinite _ then .error .outsideDomain else normalize (x.mod y)

def compare? : Number → Number → Option Ordering
  | .int i, .int j => some (compare i j)
  | .int i, .float y => y.compareInt? i
  | .float x, .int j => (x.compareInt? j).map Ordering.swap
  | .float x, .float y => x.compare? y

def agrees (a b : Number) : Bool :=
  a.compare? b == some .eq

def isTruthy (n : Number) : Except Fault Bool := do
  if n.isZero then return false
  let x ← n.toBinary64
  return x ≠ .nan

/--
Numbers in string concatenation: up to 21 places without an exponent, whole numbers without a
point.
-/
def plain : Decimal.Layout :=
  ⟨-5, 21, false, 1⟩

/--
Numbers in data: up to 16 places without an exponent, whole floating point numbers with `.0`.
-/
def data : Decimal.Layout :=
  ⟨-3, 16, true, 2⟩

def signed (negative : Bool) (t : Text) : Text :=
  if negative then Text.concat ["-", t] else t

/--
The text that a number contributes to string concatenation. Integers of more than 21 places are
written as the nearest floating point number.
-/
def plainText : Number → Except Fault Text
  | .int i =>
    if i.natAbs < Nat.pow 10 21 then .ok (Text.ofInt i) else ofBinary64 (Binary64.ofInt i)
  | .float x => ofBinary64 x
where
  ofBinary64 : Binary64 → Except Fault Text
    | .finite negative rank =>
      if rank.val = 0 then .ok "0"
      else .ok (signed negative ((Binary64.shortest rank.val).text plain))
    | _ => .error .notFinite

def dataTextOfBinary64 : Binary64 → Text
  | .nan => "NaN"
  | .infinite negative => signed negative "Infinity"
  | .finite negative rank =>
    signed negative <|
      if rank.val = 0 then "0.0" else (Binary64.shortest rank.val).text data

def dataText? : Number → Option Text
  | .int i => if fitsText i.natAbs then some (Text.ofInt i) else none
  | .float x => some (dataTextOfBinary64 x)

end Number

end PageBinding
