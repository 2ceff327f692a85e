import PageBinding.Text

/-!
This module contains positive decimal numbers and the texts in which they are written. Which of the
possible texts is chosen is up to a `Decimal.Layout`.
-/

namespace PageBinding

/--
The positive number `digits * 10 ^ exponent`. The last digit is not a zero, so each number has
exactly one such form.
-/
structure Decimal where
  digits : Nat
  exponent : Int
  deriving DecidableEq, Repr

namespace Decimal

def dropZeros (fuel n : Nat) : Nat × Nat :=
  match fuel with
  | 0 => (n, 0)
  | fuel + 1 =>
    if n % 10 = 0 then
      let (digits, count) := dropZeros fuel (n / 10)
      (digits, count + 1)
    else
      (n, 0)

def ofDigits (n : Nat) (exponent : Int) : Decimal :=
  let (digits, count) := dropZeros n.log2 n
  ⟨digits, exponent + count⟩

/--
The decisions of a number format: the numbers from `10 ^ (low - 1)` to below `10 ^ high` are written
without an exponent, whole numbers among them end in `.0` if `point` is set, and an exponent has at
least `width` digits after its sign.
-/
structure Layout where
  low : Int
  high : Int
  point : Bool
  width : Nat

/--
How many places the decimal point stands to the right of the first digit's left side.
-/
def magnitude (d : Decimal) : Int :=
  d.exponent + (Text.ofNat d.digits).length

def zeros (count : Int) : Text :=
  List.replicate count.toNat (CodePoint.ofChar '0')

def exponentPart (width : Nat) (exponent : Int) : Text :=
  let digits := Text.ofNat exponent.natAbs
  Text.concat [
    if exponent < 0 then "e-" else "e+",
    zeros ((width : Int) - digits.length),
    digits]

def text (layout : Layout) (d : Decimal) : Text :=
  let digits := Text.ofNat d.digits
  let count : Int := digits.length
  let n := d.magnitude
  if layout.low ≤ n && n ≤ layout.high then
    if count ≤ n then
      Text.concat [digits, zeros (n - count), if layout.point then ".0" else ""]
    else if 0 < n then
      Text.concat [digits.take n.toNat, ".", digits.drop n.toNat]
    else
      Text.concat ["0.", zeros (-n), digits]
  else
    let fraction : Text := if count = 1 then "" else Text.concat [".", digits.drop 1]
    Text.concat [digits.take 1, fraction, exponentPart layout.width (n - 1)]

end Decimal

end PageBinding
