import PageBinding.Text.Cluster

/-!
This module contains how texts are laid out on a screen of cells: tabs lead to the next tab stop,
and a text that is wider than its column is broken between words or, where a word is too wide,
shortened.
-/

namespace PageBinding

namespace Console

def blanks (n : Nat) : Text :=
  List.replicate n (.ofChar ' ')

def tabWidth : Nat :=
  8

/--
What stands between two tab stops, with blanks up to the second one. It ends with at least one.
-/
def toTabStop (piece : Text) : Text :=
  let piece := piece ++ blanks 1
  piece ++ blanks ((tabWidth - piece.width % tabWidth) % tabWidth)

def joinAtTabStops (pieces : List Text) : Text :=
  match pieces with
  | [] => []
  | [last] => last
  | piece :: rest => toTabStop piece ++ joinAtTabStops rest

def expandTabs (line : Text) : Text :=
  joinAtTabStops (line.splitAt (·.is '\t'))

def endsLine (c : CodePoint) : Bool :=
  c.isBetween '\n' '\r' || (28 ≤ c.val && c.val ≤ 30) || c.val = 0x85 || c.val = 0x2028 ||
    c.val = 0x2029

/--
The width of the widest line of a text. Tabs do not count.
-/
def columnWidth (t : Text) : Nat :=
  ((t.splitAt endsLine).map Text.width).foldl Nat.max 0

/--
The words of a line, each with the white space after it. The first one also has what stands before
it.
-/
def stretches (line : Text) : List Text :=
  match line.splitBy fun a b => !a.isSpace || b.isSpace with
  | first :: second :: rest =>
    if Text.isBlank first then (first ++ second) :: rest else first :: second :: rest
  | pieces => pieces

/--
The lines that begin with a given line and go on with words, as many to a line as it is wide. The
white space at the end of a line needs no room. A line is as wide as its words, each on its own.
-/
def fill (width : Nat) (line : Text) (column : Nat) (words : List Text) : List Text :=
  match words with
  | [] => [line]
  | word :: rest =>
    if column + word.trimEnd.width ≤ width then
      fill width (line ++ word) (column + word.width) rest
    else line :: fill width word word.width rest

def breakLine (width : Nat) (line : Text) : List Text :=
  match stretches line with
  | [] => [[]]
  | first :: rest => fill width first first.width rest

/--
A line without white space at its end, as far as it has more code points than cells.
-/
def cropEnd (width : Nat) (line : Text) : Text :=
  let excess := line.length - width
  let space := line.length - line.trimEnd.length
  line.take (line.length - min space excess)

def shorten (width : Nat) (line : Text) : Text :=
  if line.width ≤ width then line
  else if width ≤ 1 then "…"
  else Cluster.beginning (width - 1) line.clusters ++ ("…" : Text)

def wrap (width : Nat) (t : Text) : List Text :=
  t.lines.flatMap fun line =>
    (breakLine width (expandTabs line)).map fun part => shorten width (cropEnd width part)

end Console

end PageBinding
