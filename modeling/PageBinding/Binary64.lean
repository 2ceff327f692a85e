import PageBinding.Decimal

/-!
This module contains binary floating point numbers of 64 bits and their arithmetic. Every finite
number is a natural number of units of `2 ^ (-1074)`, with a sign, so each operation is computed
exactly on such units and then rounded once, to the nearest number and to the even one of two that
are equally near.
-/

namespace PageBinding

/--
The number of magnitudes that are equally far apart: one for each fraction of 52 bits.
-/
abbrev Binary64.binade : Nat :=
  Nat.pow 2 52

/--
The magnitude of a finite number: its place in the ascending order of all magnitudes.
-/
abbrev Rank := Fin (2047 * Binary64.binade)

/--
A binary floating point number of 64 bits. There is one value that is not a number.
-/
inductive Binary64 where
  | nan
  | infinite (negative : Bool)
  | finite (negative : Bool) (rank : Rank)
  deriving DecidableEq, Repr

namespace Binary64

def one : Nat :=
  Nat.pow 2 1074

/--
The number of units in the magnitude of a given rank. The magnitudes of the first two binades are
one unit apart; from there on the distance doubles with every binade.
-/
def unitsAt (rank : Nat) : Nat :=
  if rank < 2 * binade then rank
  else (binade + rank % binade) * Nat.pow 2 (rank / binade - 1)

/--
Round the quotient of two natural numbers, to the even one of two that are equally near.
-/
def roundQuotient (num den : Nat) : Nat :=
  let quotient := num / den
  let twice := 2 * (num % den)
  if twice < den || (twice == den && quotient % 2 == 0) then quotient else quotient + 1

/--
The rank nearest to `num / den` units. It is beyond the last rank where the number is too large.
-/
def nearestRank (num den : Nat) : Nat :=
  let shift := (num / den).log2 - 52
  shift * binade + roundQuotient num (den * Nat.pow 2 shift)

def ofUnits (negative : Bool) (num den : Nat) : Binary64 :=
  let rank := nearestRank num den
  if h : rank < 2047 * binade then .finite negative ⟨rank, h⟩ else .infinite negative

def signedUnits (negative : Bool) (rank : Rank) : Int :=
  if negative then -(unitsAt rank.val : Int) else unitsAt rank.val

def zero (negative : Bool) : Binary64 :=
  .finite negative ⟨0, by decide⟩

def isFinite : Binary64 → Bool
  | .finite .. => true
  | _ => false

def signBit : Nat :=
  2048 * binade

def ofBits (word : Nat) : Binary64 :=
  let negative := word / signBit % 2 == 1
  let rank := word % signBit
  if h : rank < 2047 * binade then .finite negative ⟨rank, h⟩
  else if rank = 2047 * binade then .infinite negative
  else .nan

def toBits : Binary64 → Nat
  | .nan => 2047 * binade + binade / 2
  | .infinite negative => (if negative then signBit else 0) + 2047 * binade
  | .finite negative rank => (if negative then signBit else 0) + rank.val

def ofInt (i : Int) : Binary64 :=
  ofUnits (i < 0) (i.natAbs * one) 1

def toInt? : Binary64 → Option Int
  | .finite negative rank =>
    if unitsAt rank.val % one = 0 then some (signedUnits negative rank / one) else none
  | _ => none

def ofRatio (negative : Bool) (num den : Nat) : Binary64 :=
  ofUnits negative (num * one) den

/--
The number nearest to `digits * 10 ^ exponent`. Far outside the range of the magnitudes the power
is not computed.
-/
def ofDecimal (negative : Bool) (digits : Nat) (exponent : Int) : Binary64 :=
  let magnitude := exponent + (Text.ofNat digits).length
  if digits = 0 then zero negative
  else if 400 < magnitude then .infinite negative
  else if magnitude < -400 then zero negative
  else if 0 ≤ exponent then ofRatio negative (digits * Nat.pow 10 exponent.toNat) 1
  else ofRatio negative digits (Nat.pow 10 (-exponent).toNat)

def neg : Binary64 → Binary64
  | .nan => .nan
  | .infinite negative => .infinite !negative
  | .finite negative rank => .finite (!negative) rank

/--
The sum of two numbers. A sum of zero is negative only if both numbers are.
-/
def add : Binary64 → Binary64 → Binary64
  | .nan, _ => .nan
  | _, .nan => .nan
  | .infinite a, .infinite b => if a = b then .infinite a else .nan
  | .infinite a, _ => .infinite a
  | _, .infinite b => .infinite b
  | .finite a x, .finite b y =>
    let sum := signedUnits a x + signedUnits b y
    if sum = 0 then zero (a && b) else ofUnits (sum < 0) sum.natAbs 1

def sub (x y : Binary64) : Binary64 :=
  add x y.neg

def mul : Binary64 → Binary64 → Binary64
  | .nan, _ => .nan
  | _, .nan => .nan
  | .infinite a, .infinite b => .infinite (a != b)
  | .infinite a, .finite b y => if y.val = 0 then .nan else .infinite (a != b)
  | .finite a x, .infinite b => if x.val = 0 then .nan else .infinite (a != b)
  | .finite a x, .finite b y => ofUnits (a != b) (unitsAt x.val * unitsAt y.val) one

def div : Binary64 → Binary64 → Binary64
  | .nan, _ => .nan
  | _, .nan => .nan
  | .infinite _, .infinite _ => .nan
  | .infinite a, .finite b _ => .infinite (a != b)
  | .finite a _, .infinite b => zero (a != b)
  | .finite a x, .finite b y =>
    if y.val = 0 then
      if x.val = 0 then .nan else .infinite (a != b)
    else
      ofUnits (a != b) (unitsAt x.val * one) (unitsAt y.val)

/--
The remainder of the division that truncates, with the sign of the first number.
-/
def mod : Binary64 → Binary64 → Binary64
  | .nan, _ => .nan
  | _, .nan => .nan
  | .infinite _, _ => .nan
  | .finite a x, .infinite _ => .finite a x
  | .finite a x, .finite _ y =>
    if y.val = 0 then .nan else ofUnits a (unitsAt x.val % unitsAt y.val) 1

def compare? : Binary64 → Binary64 → Option Ordering
  | .nan, _ => none
  | _, .nan => none
  | .infinite a, .infinite b => some (compare b a)
  | .infinite a, .finite .. => some (if a then .lt else .gt)
  | .finite .., .infinite b => some (if b then .gt else .lt)
  | .finite a x, .finite b y => some (compare (signedUnits a x) (signedUnits b y))

def compareInt? (i : Int) : Binary64 → Option Ordering
  | .nan => none
  | .infinite negative => some (if negative then .gt else .lt)
  | .finite negative rank => some (compare (i * one) (signedUnits negative rank))

def isZero : Binary64 → Bool
  | .finite _ rank => rank.val = 0
  | _ => false

/--
The sign and the exponent of a power of ten that a magnitude of `units` is below, while it is not
below the power before it. The search starts at an estimate that is never too high.
-/
def tenPower (units : Nat) : Int :=
  let estimate : Int := ((units.log2 : Int) - 1074) * 30103 / 100000
  search 4 (estimate - 1)
where
  search (fuel : Nat) (power : Int) : Int :=
    match fuel with
    | 0 => power
    | fuel + 1 =>
      let below := if 0 ≤ power then decide (units < one * Nat.pow 10 power.toNat)
        else decide (units * Nat.pow 10 (-power).toNat < one)
      if below then power else search fuel (power + 1)

/--
The integer at or below the quotient of `units` units and `10 ^ exponent`, and whether twice the
rest is less than, equal to or more than the divisor.
-/
def gridPoint (units : Nat) (exponent : Int) : Nat × Ordering :=
  let (num, den) := if 0 ≤ exponent then (units, one * Nat.pow 10 exponent.toNat)
    else (units * Nat.pow 10 (-exponent).toNat, one)
  (num / den, compare (2 * (num % den)) den)

def readsBack (rank digits : Nat) (exponent : Int) : Bool :=
  let low := unitsAt (rank - 1) + unitsAt rank
  let high := unitsAt rank + unitsAt (rank + 1)
  let (num, den) := if 0 ≤ exponent then (2 * one * digits * Nat.pow 10 exponent.toNat, 1)
    else (2 * one * digits, Nat.pow 10 (-exponent).toNat)
  if rank % 2 = 0 then low * den ≤ num && num ≤ high * den else low * den < num && num < high * den

/--
The decimal with the fewest digits that is rounded to the magnitude of a given positive rank; of
several the one nearest to the magnitude. Seventeen digits are always enough.
-/
def shortest (rank : Nat) : Decimal :=
  let units := unitsAt rank
  let power := tenPower units
  search units power 1 16
where
  search (units : Nat) (power : Int) (count fuel : Nat) : Decimal :=
    let exponent := power - count
    let (low, half) := gridPoint units exponent
    let nearest := if half = .lt || (half = .eq && low % 2 = 0) then low else low + 1
    match fuel with
    | 0 => Decimal.ofDigits nearest exponent
    | fuel + 1 =>
      if readsBack rank nearest exponent then Decimal.ofDigits nearest exponent
      else if readsBack rank low exponent then Decimal.ofDigits low exponent
      else if readsBack rank (low + 1) exponent then Decimal.ofDigits (low + 1) exponent
      else search units power (count + 1) fuel

end Binary64

end PageBinding
