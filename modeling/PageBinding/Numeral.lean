import PageBinding.Number
import PageBinding.Text.Digit

/-!
This module contains numerals: how far one reaches at the start of a text, and which number it
denotes. A numeral has decimal digits of any script, at most one point and at most one exponent.
-/

namespace PageBinding

namespace Numeral

def digitsLength (t : Text) : Nat :=
  (t.takeWhile CodePoint.isDecimal).length

/--
The length of the part of a number before its exponent: digits, or digits around a point of which at
least one exists.
-/
def mantissaLength (t : Text) : Nat :=
  let whole := digitsLength t
  match t.drop whole with
  | c :: rest =>
    if c.is '.' && (0 < whole || 0 < digitsLength rest) then whole + 1 + digitsLength rest
    else whole
  | [] => whole

def exponentLength (t : Text) : Nat :=
  match t with
  | c :: rest =>
    if c.is 'e' || c.is 'E' then
      let sign := match rest with
        | s :: _ => if s.is '+' || s.is '-' then 1 else 0
        | [] => 0
      let digits := digitsLength (rest.drop sign)
      if digits = 0 then 0 else 1 + sign + digits
    else
      0
  | [] => 0

def length (t : Text) : Nat :=
  let mantissa := mantissaLength t
  if mantissa = 0 then 0 else mantissa + exponentLength (t.drop mantissa)

def signedValue (t : Text) : Int :=
  match t with
  | c :: rest =>
    if c.is '-' then -(Text.decimalValue rest : Int)
    else if c.is '+' then Text.decimalValue rest
    else Text.decimalValue t
  | [] => 0

def binary64 (numeral : Text) : Binary64 :=
  let whole := numeral.takeWhile CodePoint.isDecimal
  let afterWhole := numeral.drop whole.length
  let fraction :=
    if Text.startsWith afterWhole "." then (afterWhole.drop 1).takeWhile CodePoint.isDecimal else []
  let afterPoint := afterWhole.dropWhile fun c => c.is '.' || c.isDecimal
  let exponent := signedValue (afterPoint.drop 1)
  Binary64.ofDecimal false (Text.decimalValue (whole ++ fraction)) (exponent - fraction.length)

end Numeral

end PageBinding
