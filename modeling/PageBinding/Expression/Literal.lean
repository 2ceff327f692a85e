import PageBinding.Expression.Token

/-!
This module contains the values of the literals: what the escapes of a string denote, and which
number a numeral denotes.
-/

namespace PageBinding

namespace Expression

inductive EscapeFault where
  | notCodePoint
  /-- The number is beyond every code point by far. -/
  | tooLarge
  deriving DecidableEq, Repr

namespace Literal

def hexValue (digits : Text) : Nat :=
  digits.foldl (fun n c => n * 16 + c.hexValue?.getD 0) 0

def isHex (c : CodePoint) : Bool :=
  c.hexValue?.isSome

def codePoint (n : Nat) : Except EscapeFault Text :=
  if h : n < 0x110000 then .ok [⟨n, h⟩]
  else if n < 0x80000000 then .error .notCodePoint
  else .error .tooLarge

def bracedDigits? (t : Text) : Option Text :=
  match t with
  | c :: rest =>
    let digits := rest.takeWhile isHex
    match rest.drop digits.length with
    | d :: _ => if c.is '\x7b' && d.is '\x7d' && !digits.isEmpty then some digits else none
    | [] => none
  | [] => none

def fixedDigits? (count : Nat) (t : Text) : Option Text :=
  let digits := t.take count
  if digits.length = count && digits.all isHex then some digits else none

def simpleEscape (c : CodePoint) : Text :=
  if c.is 'n' then "\n"
  else if c.is 't' then "\t"
  else if c.is 'r' then "\r"
  else if c.is 'b' then "\x08"
  else if c.is 'f' then "\x0c"
  else if c.is 'v' then "\x0b"
  else if c.is '0' then "\x00"
  else if c.is '\n' then []
  else [c]

/--
What the escape denotes whose backslash stands before a code point and the text after that, and how
many code points of that text belong to it.
-/
def escape (c : CodePoint) (rest : Text) : Except EscapeFault (Text × Nat) :=
  if c.is 'u' then
    match bracedDigits? rest, fixedDigits? 4 rest with
    | some digits, _ => do return (← codePoint (hexValue digits), digits.length + 2)
    | none, some digits => do return (← codePoint (hexValue digits), 4)
    | none, none => .ok ([c], 0)
  else if c.is 'x' then
    match fixedDigits? 2 rest with
    | some digits => do return (← codePoint (hexValue digits), 2)
    | none => .ok ([c], 0)
  else if c.is '\r' && Text.startsWith rest "\n" then .ok ([], 1)
  else .ok (simpleEscape c, 0)

def unescape (t : Text) : Except EscapeFault Text :=
  match t with
  | [] => .ok []
  | [c] => .ok [c]
  | c :: d :: rest =>
    if c.is '\\' then do
      let (piece, n) ← escape d rest
      return piece ++ (← unescape (rest.drop n))
    else do
      return c :: (← unescape (d :: rest))
termination_by t.length
decreasing_by
  all_goals simp only [List.length_drop, List.length_cons]; omega

def string (literal : Text) : Except EscapeFault Text :=
  unescape ((literal.drop 1).dropLast)

/--
The number that a numeral denotes. Digits alone denote an integer, unless they are too many; any
other numeral denotes an integer if its value is a whole number below `Number.wholeBound`.
-/
def number (numeral : Text) : Number :=
  let x := Numeral.binary64 numeral
  if numeral.all CodePoint.isDecimal then
    if numeral.length ≤ Number.maxDigits then .int (Text.decimalValue numeral) else .float x
  else
    match x.toInt? with
    | some i => if i.natAbs < Number.wholeBound then .int i else .float x
    | none => .float x

end Literal

end Expression

end PageBinding
