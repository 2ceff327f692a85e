import PageBinding.Failure

/-!
This module contains the identifiers by which expressions refer to variables. The id of a variable
is an arbitrary text, so its letters and digits are kept and every other code point is written as
`$<lower case hexadecimal>$`, all after a fixed mark. Each identifier that is written in this way
refers to exactly one id.
-/

namespace PageBinding

namespace Reference

def mark : Text :=
  "$ws$dataSource$"

def isPlain (c : CodePoint) : Bool :=
  c.isAsciiLetter || c.isAsciiDigit

def escape (c : CodePoint) : Text :=
  if isPlain c then [c] else Text.concat ["$", Text.hex c.val, "$"]

def encode (id : Text) : Text :=
  mark ++ id.flatMap escape

/--
The identifier that refers to a variable, unless its id is empty.
-/
def encode? (id : Text) : Except Failure Text :=
  if id.isEmpty then .error .emptyId else .ok (encode id)

/--
Where a decoder is: between the code points of an id, or inside of an escape with the number read so
far, if there is one.
-/
inductive Progress where
  | outside
  | inside (value : Option Nat)

/--
The code point that a finished escape denotes. The code points that are kept have no escape.
-/
def unescape? (value : Option Nat) : Option CodePoint := do
  let n ← value
  if h : n < 0x110000 then
    let c : CodePoint := ⟨n, h⟩
    if isPlain c then none else some c
  else
    none

/--
The number read so far, after another digit. Only the number zero starts with the digit zero.
-/
def extend? (value : Option Nat) (c : CodePoint) : Option Nat :=
  if c.isAsciiDigit || c.isBetween 'a' 'f' then
    match value, c.hexValue? with
    | none, digit => digit
    | some 0, _ => none
    | some n, digit => digit.map (n * 16 + ·)
  else
    none

/--
The id that is written in a text, if the text follows the rules of `escape`.
-/
def decodeBody? (progress : Progress) (t : Text) : Option Text :=
  match t with
  | [] =>
    match progress with
    | .outside => some []
    | .inside _ => none
  | c :: rest =>
    match progress with
    | .outside =>
      if isPlain c then (decodeBody? .outside rest).map (c :: ·)
      else if c.is '$' then decodeBody? (.inside none) rest
      else none
    | .inside value =>
      if c.is '$' then do
        let point ← unescape? value
        let id ← decodeBody? .outside rest
        return point :: id
      else do
        let value ← extend? value c
        decodeBody? (.inside (some value)) rest

def decode? (identifier : Text) : Option Text :=
  if identifier.startsWith mark then
    match identifier.drop mark.length with
    | [] => none
    | body => decodeBody? .outside body
  else
    none

def isReference (identifier : Text) : Bool :=
  (decode? identifier).isSome

end Reference

end PageBinding
