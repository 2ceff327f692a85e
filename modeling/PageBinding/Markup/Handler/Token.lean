import PageBinding.Failure
import PageBinding.Text.Digit
import PageBinding.Text.Printable

/-!
This module contains the tokens of the literals that stand as parameters in the tags of handlers. A
text that does not fall into tokens is no literal, wherever in it the fault is.
-/

namespace PageBinding

namespace Markup

namespace Handler

inductive Kind where
  | name
  | number (isImaginary : Bool)
  | quoted (isBytes isMixed : Bool)
  | sign
  | newline
  | finish
  /-- The end of the text inside of brackets, of which the last one is the token. -/
  | unclosed
  /-- A backslash that does not stand at the end of its line. Nothing after it is looked at. -/
  | stray
  deriving DecidableEq, Repr

structure Token where
  kind : Kind
  text : Text
  depth : Nat
  deriving DecidableEq, Repr

/--
Whether a code point beyond ASCII counts as a letter: the printable ones do, outside of the blocks
of punctuation, symbols and pictures.
-/
def isForeignLetter (c : CodePoint) : Bool :=
  let n := c.val
  let isLatinSymbol := n < 0xc0 && n ≠ 0xaa && n ≠ 0xb5 && n ≠ 0xba
  0x80 ≤ n && c.isPrintable && !isLatinSymbol && n ≠ 0xd7 && n ≠ 0xf7 &&
    !((0x2010 ≤ n && n ≤ 0x2070) || (0x20a0 ≤ n && n ≤ 0x20cf) || (0x2190 ≤ n && n ≤ 0x2bff) ||
      (0x3000 ≤ n && n ≤ 0x3004) || (0x3008 ≤ n && n ≤ 0x3020) || (0xff01 ≤ n && n ≤ 0xff0f) ||
      (0x1f000 ≤ n && n ≤ 0x1fbef))

def isNameStart (c : CodePoint) : Bool :=
  c.isAsciiLetter || c.is '_' || isForeignLetter c

def isNamePart (c : CodePoint) : Bool :=
  isNameStart c || c.isDecimal

def isNameLike (c : CodePoint) : Bool :=
  c.isAsciiLetter || c.isAsciiDigit || c.is '_' || 0x80 ≤ c.val

def nameFault? (name : Text) : Option LiteralFault :=
  let start := if name.head?.any isNameStart then name.takeWhile isNamePart else []
  (name.drop start.length).head?.map .character

/--
Whether a text starts with a word that may follow an operand. The short ones that start with `i`
need not end there.
-/
def startsWithConnective (t : Text) : Bool :=
  let short : List Text := ["if", "in", "is"]
  let long : List Text := ["and", "else", "for", "or", "not"]
  short.any t.startsWith || long.any fun word =>
    t.startsWith word && !(t.drop word.length).head?.any isNameLike

/--
The fault of what follows a numeral of some kind: a letter, unless a word starts there that may
follow an operand.
-/
def endFault? (kind rest : Text) : Option LiteralFault :=
  if startsWithConnective rest then none
  else if rest.head?.any fun c => isNameLike c && c.val < 0x80 then some (.numeral kind)
  else none

/--
Some digits, between which single underscores may stand, and the text after them. There is none if
an underscore is followed by no digit.
-/
def digitRun? (isDigit : CodePoint → Bool) (t : Text) : Option (Text × Text) :=
  match t with
  | [] => some ([], [])
  | c :: rest =>
    if isDigit c then (digitRun? isDigit rest).map fun (digits, rest) => (c :: digits, rest)
    else if c.is '_' then
      match rest with
      | d :: _ =>
        if isDigit d then (digitRun? isDigit rest).map fun (digits, rest) => (c :: digits, rest)
        else none
      | [] => none
    else some ([], t)

structure Base where
  letter : Char
  kind : Text
  isDigit : CodePoint → Bool

def bases : List Base := [
  ⟨'x', "hexadecimal", fun c => c.hexValue?.isSome⟩,
  ⟨'o', "octal", fun c => c.isBetween '0' '7'⟩,
  ⟨'b', "binary", fun c => c.isBetween '0' '1'⟩]

def basedNumeral (base : Base) (t : Text) : Except LiteralFault Text :=
  let t := match t with
    | c :: rest => if c.is '_' then rest else t
    | [] => t
  let fault (rest : Text) : LiteralFault :=
    match rest.head? with
    | some d =>
      if d.isAsciiDigit && base.letter ≠ 'x' then .digit d base.kind else .numeral base.kind
    | none => .numeral base.kind
  if !t.head?.any base.isDigit then .error (fault t) else
  match digitRun? base.isDigit t with
  | none => .error (fault ((t.dropWhile base.isDigit).drop 1))
  | some (_, rest) =>
    if rest.head?.any CodePoint.isAsciiDigit then .error (fault rest) else
    match endFault? base.kind rest with
    | some fault => .error fault
    | none => .ok rest

/--
The rest of a text after the end of a decimal numeral, and whether the numeral is imaginary. An
exponent may come before the end.
-/
def endOfDecimal (t : Text) : Except LiteralFault (Bool × Text) := do
  let invalid : LiteralFault := .numeral "decimal"
  let t ← match t with
    | e :: rest =>
      if e.is 'e' || e.is 'E' then
        let digits := match rest with
          | s :: after => if s.is '+' || s.is '-' then after else rest
          | [] => rest
        if digits.head?.any CodePoint.isAsciiDigit then
          match digitRun? CodePoint.isAsciiDigit digits with
          | some (_, rest) => pure rest
          | none => throw invalid
        else if digits.length < rest.length || (endFault? "decimal" t).isSome then throw invalid
        else pure t
      else pure t
    | [] => pure t
  let (isImaginary, rest) := match t with
    | j :: rest => if j.is 'j' || j.is 'J' then (true, rest) else (false, t)
    | [] => (false, t)
  match endFault? (if isImaginary then "imaginary" else "decimal") rest with
  | some fault => throw fault
  | none => return (isImaginary, rest)

def numeral (t : Text) : Except LiteralFault (Bool × Text) :=
  let base? := match t with
    | zero :: letter :: rest =>
      if zero.is '0' then
        (bases.find? fun (base : Base) =>
          letter.is base.letter || letter.is base.letter.toUpper).map fun base => (base, rest)
      else none
    | _ => none
  match base? with
  | some (base, rest) => (basedNumeral base rest).map fun rest => (false, rest)
  | none =>
    match digitRun? CodePoint.isAsciiDigit t with
    | none => .error (.numeral "decimal")
    | some (whole, rest) =>
      let isPadded := whole.head?.any (·.is '0') && whole.any fun c => c.isBetween '1' '9'
      match rest with
      | c :: after =>
        if c.is '.' then
          if !after.head?.any CodePoint.isAsciiDigit then endOfDecimal after else
          match digitRun? CodePoint.isAsciiDigit after with
          | some (_, rest) => endOfDecimal rest
          | none => .error (.numeral "decimal")
        else if isPadded && !"eEjJ".toList.any c.is then .error .leadingZeros
        else endOfDecimal rest
      | [] => if isPadded then .error .leadingZeros else .ok (false, [])

/--
The rest of a text after the quotes that end it, and the number of lines that it goes on for.
Backslashes hide what follows them. The lone quote ends with the line.
-/
def closeQuotes? (quotes : Text) (t : Text) : Option (Text × Nat) :=
  match t with
  | [] => none
  | c :: rest =>
    if t.startsWith quotes then some (t.drop quotes.length, 0)
    else if c.is '\\' then
      match rest with
      | [] => none
      | d :: rest =>
        (closeQuotes? quotes rest).map fun (rest, n) => (rest, if d.is '\n' then n + 1 else n)
    else if c.is '\n' then
      if quotes.length = 1 then none
      else (closeQuotes? quotes rest).map fun (rest, n) => (rest, n + 1)
    else closeQuotes? quotes rest

def quoteMarks : List Text :=
  ["", "r", "b", "u", "f", "rb", "br", "rf", "fr"]

def quoteStart? (t : Text) : Option (Text × Text) :=
  let mark := t.takeWhile CodePoint.isAsciiLetter
  let rest := t.drop mark.length
  if rest.head?.any (fun c => c.is '\x27' || c.is '\x22') && Text.asciiLower mark ∈ quoteMarks then
    some (Text.asciiLower mark, rest)
  else none

def signs : List Text :=
  Text.words <| Text.concat [
    "**= //= >>= <<= ... ** // >> << <= >= == != -> += -= *= /= %= &= |= ^= @= := <>"]

def closingOf (opening : CodePoint) : Char :=
  if opening.is '(' then ')' else if opening.is '[' then ']' else '\x7d'

/--
The tokens of a text from a line on, where some brackets are open, the last one first, each with its
line. Each step uses up at least one code point, so the length of the text is enough fuel.
-/
def tokensFrom (fuel line : Nat) (opened : List (CodePoint × Nat)) (t : Text) :
    Except LiteralFault (List Token) :=
  match fuel, t with
  | 0, _ | _, [] =>
    match opened with
    | (bracket, _) :: _ => .ok [⟨.unclosed, [bracket], opened.length⟩]
    | [] => .ok [⟨.finish, [], 0⟩]
  | fuel + 1, c :: rest =>
    let go (kind : Kind) (text rest : Text) : Except LiteralFault (List Token) :=
      (tokensFrom fuel line opened rest).map (⟨kind, text, opened.length⟩ :: ·)
    if c.is ' ' || c.is '\t' || c.is '\x0c' then tokensFrom fuel line opened rest
    else if c.is '#' then tokensFrom fuel line opened (rest.dropWhile fun d => !d.is '\n')
    else if c.is '\n' || c.is '\r' then
      if opened.isEmpty then
        (tokensFrom fuel (line + 1) opened rest).map (⟨.newline, [c], 0⟩ :: ·)
      else tokensFrom fuel (line + 1) opened rest
    else if c.is '\\' then
      match rest with
      | d :: e :: rest =>
        if d.is '\n' then tokensFrom fuel (line + 1) opened (e :: rest)
        else .ok [⟨.stray, [], opened.length⟩]
      | _ => .ok [⟨.stray, [], opened.length⟩]
    else
      match quoteStart? t with
      | some (mark, quoted) =>
        let quote := quoted.take 1
        let triple := quote ++ quote ++ quote
        let quotes := if quoted.startsWith triple then triple else quote
        let body := quoted.drop quotes.length
        match closeQuotes? quotes body with
        | some (rest, lines) =>
          let kind : Kind := .quoted (mark.any (·.is 'b')) (mark.any (·.is 'f'))
          (tokensFrom fuel (line + lines) opened rest).map (⟨kind, quote, opened.length⟩ :: ·)
        | none =>
          let lines := if quotes.length = 1 then 0 else body.countP (·.is '\n')
          .error (.unterminated (quotes.length = 3) (line + lines))
      | none =>
        if c.isAsciiLetter || c.is '_' || 0x80 ≤ c.val then
          let name := t.takeWhile isNameLike
          match nameFault? name with
          | some fault => .error fault
          | none => go .name name (t.drop name.length)
        else if c.isAsciiDigit || (c.is '.' && rest.head?.any CodePoint.isAsciiDigit) then
          match numeral t with
          | .error fault => .error fault
          | .ok (isImaginary, rest) => go (.number isImaginary) [] rest
        else if c.is '(' || c.is '[' || c.is '\x7b' then
          let opened := (c, line) :: opened
          (tokensFrom fuel line opened rest).map (⟨.sign, [c], opened.length⟩ :: ·)
        else if c.is ')' || c.is ']' || c.is '\x7d' then
          match opened with
          | [] => .error (.unmatched c)
          | (opening, start) :: opened =>
            if c.is (closingOf opening) then
              (tokensFrom fuel line opened rest).map (⟨.sign, [c], opened.length⟩ :: ·)
            else
              .error (.mismatched c opening (if start = line then none else some start))
        else if !c.isPrintable then .error (.character c)
        else
          match signs.find? t.startsWith with
          | some sign => go .sign sign (t.drop sign.length)
          | none => go .sign [c] rest

def tokens (t : Text) : Except LiteralFault (List Token) :=
  tokensFrom t.length 1 [] t

end Handler

end Markup

end PageBinding
