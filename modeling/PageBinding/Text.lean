/-!
This module contains the texts that ids, names, keys, messages and expressions are made of.

A text is the list of its code points. Surrogates are code points like any other: escapes in string
literals and encoded ids can spell them on their own, so a `String` would be too narrow.
-/

namespace PageBinding

abbrev CodePoint := Fin 0x110000

namespace CodePoint

def ofChar (c : Char) : CodePoint :=
  ⟨c.toNat, by
    have h : c.val.toNat < 0xd800 ∨ 0xdfff < c.val.toNat ∧ c.val.toNat < 0x110000 := c.valid
    show c.val.toNat < 0x110000
    omega⟩

@[simp]
theorem val_ofChar (c : Char) : (ofChar c).val = c.toNat := rfl

def ofNat (n : Nat) : CodePoint :=
  if h : n < 0x110000 then ⟨n, h⟩ else ⟨0x10ffff, by decide⟩

def is (c : CodePoint) (char : Char) : Bool :=
  c.val == char.toNat

def isBetween (c : CodePoint) (low high : Char) : Bool :=
  low.toNat ≤ c.val && c.val ≤ high.toNat

def isAsciiDigit (c : CodePoint) : Bool :=
  c.isBetween '0' '9'

def isAsciiLetter (c : CodePoint) : Bool :=
  c.isBetween 'a' 'z' || c.isBetween 'A' 'Z'

/--
Half of a UTF-16 pair. Such a code point is no `Char`.
-/
def isSurrogate (c : CodePoint) : Bool :=
  0xd800 ≤ c.val && c.val ≤ 0xdfff

/--
Whether a code point is white space: the separators and the control characters that break or
advance a line.
-/
def isSpace (c : CodePoint) : Bool :=
  let n := c.val
  (9 ≤ n && n ≤ 13) || (28 ≤ n && n ≤ 32) || n == 0x85 || n == 0xa0 || n == 0x1680 ||
    (0x2000 ≤ n && n ≤ 0x200a) || n == 0x2028 || n == 0x2029 || n == 0x202f || n == 0x205f ||
    n == 0x3000

def hexValue? (c : CodePoint) : Option Nat :=
  if c.isAsciiDigit then some (c.val - '0'.toNat)
  else if c.isBetween 'a' 'f' then some (c.val - 'a'.toNat + 10)
  else if c.isBetween 'A' 'F' then some (c.val - 'A'.toNat + 10)
  else none

end CodePoint

abbrev Text := List CodePoint

namespace Text

instance : LawfulBEq Text := inferInstance

def ofChars (cs : List Char) : Text :=
  cs.map CodePoint.ofChar

def ofString (s : String) : Text :=
  ofChars s.toList

instance : Coe String Text := ⟨ofString⟩

@[simp]
theorem ofChars_append (xs ys : List Char) : ofChars (xs ++ ys) = ofChars xs ++ ofChars ys := by
  simp [ofChars]

/--
The text as a `String`. A surrogate has no place in a `String` and becomes the replacement
character.
-/
def toString (t : Text) : String :=
  String.ofList (t.map fun c => if c.isSurrogate then '\uFFFD' else Char.ofNat c.val)

def concat (pieces : List Text) : Text :=
  pieces.flatten

def join (separator : Text) (pieces : List Text) : Text :=
  separator.intercalate pieces

def ofNat (n : Nat) : Text :=
  ofChars (Nat.toDigits 10 n)

def ofInt (i : Int) : Text :=
  if i < 0 then concat ["-", ofNat i.natAbs] else ofNat i.natAbs

def hex (n : Nat) : Text :=
  ofChars (Nat.toDigits 16 n)

def isBlank (t : Text) : Bool :=
  t.all CodePoint.isSpace

/--
The pieces of a text between separators. A text with `n` separators has `n + 1` pieces.
-/
def splitAt (isSeparator : CodePoint → Bool) (t : Text) : List Text :=
  match t with
  | [] => [[]]
  | c :: rest =>
    match isSeparator c, splitAt isSeparator rest with
    | true, pieces => [] :: pieces
    | false, [] => [[c]]
    | false, piece :: pieces => (c :: piece) :: pieces

def lines (t : Text) : List Text :=
  t.splitAt (·.is '\n')

def words (t : Text) : List Text :=
  (t.splitAt CodePoint.isSpace).filter fun word => !word.isEmpty

def trimEnd (t : Text) : Text :=
  (t.reverse.dropWhile CodePoint.isSpace).reverse

def trim (t : Text) : Text :=
  trimEnd (t.dropWhile CodePoint.isSpace)

def startsWith (t start : Text) : Bool :=
  start.isPrefixOf t

def dropEnd? (t ending : Text) : Option Text :=
  if ending.isSuffixOf t then some (t.take (t.length - ending.length)) else none

def asciiLower (t : Text) : Text :=
  t.map fun c => if c.isBetween 'A' 'Z' then c + 32 else c

/--
The values of the texts in a list, each once and in order of first occurrence.
-/
def distinct (ts : List Text) : List Text :=
  ts.foldl (fun seen t => if t ∈ seen then seen else seen ++ [t]) []

def atMost : Text → Text → Bool
  | [], _ => true
  | _ :: _, [] => false
  | a :: as, b :: bs => if a.val = b.val then atMost as bs else a.val < b.val

def sort (ts : List Text) : List Text :=
  ts.mergeSort atMost

end Text

end PageBinding
