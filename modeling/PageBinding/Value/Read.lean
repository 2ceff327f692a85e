import PageBinding.Failure
import PageBinding.Numeral
import PageBinding.Value

/-!
This module contains the reading of data from JSON text.
-/

namespace PageBinding

namespace Value

def isJsonSpace (c : CodePoint) : Bool :=
  c.is ' ' || c.is '\t' || c.is '\n' || c.is '\r'

def skipSpace (t : Text) : Text :=
  t.dropWhile isJsonSpace

def fourHex? (t : Text) : Option Nat :=
  let digits := t.take 4
  if digits.length = 4 then
    digits.foldlM (fun n c => c.hexValue?.map (n * 16 + ·)) 0
  else
    none

/--
The code point that an escape with four digits denotes, and the text after it. Two escapes for the
halves of a pair denote one code point.
-/
def unicodeEscape? (t : Text) : Option (CodePoint × Text) := do
  let high ← fourHex? t
  let rest := t.drop 4
  if 0xd800 ≤ high && high < 0xdc00 && Text.startsWith rest "\\u" then
    match fourHex? (rest.drop 2) with
    | some low =>
      if 0xdc00 ≤ low && low < 0xe000 then
        return (CodePoint.ofNat (0x10000 + (high - 0xd800) * 0x400 + (low - 0xdc00)), rest.drop 6)
    | none => pure ()
  return (CodePoint.ofNat high, rest)

def simpleEscape? (c : CodePoint) : Option CodePoint :=
  if c.is '\x22' || c.is '\\' || c.is '/' then some c
  else if c.is 'n' then some (.ofChar '\n')
  else if c.is 't' then some (.ofChar '\t')
  else if c.is 'r' then some (.ofChar '\r')
  else if c.is 'b' then some (.ofChar '\x08')
  else if c.is 'f' then some (.ofChar '\x0c')
  else none

def escape? (t : Text) : Option (CodePoint × Text) :=
  match t with
  | [] => none
  | c :: rest => if c.is 'u' then unicodeEscape? rest else (simpleEscape? c).map fun c => (c, rest)

/--
The text of a JSON string from behind its opening quote on, and the text after its closing quote.
Each step uses up at least one code point, so the length of the text is enough fuel.
-/
def readString (fuel : Nat) (t : Text) : Except Unreadable (Text × Text) :=
  match fuel, t with
  | 0, _ | _, [] => .error (.malformed .quoted)
  | fuel + 1, c :: rest =>
    if c.is '\x22' then .ok ([], rest)
    else if c.is '\\' then
      match escape? rest with
      | none => .error (.malformed .escape)
      | some (c, rest) => (readString fuel rest).map fun (t, rest) => (c :: t, rest)
    else (readString fuel rest).map fun (t, rest) => (c :: t, rest)

/--
The number at the start of a text and the text after it. A numeral of digits alone denotes an
integer, which may not be too long.
-/
def readNumber (t : Text) : Except Unreadable (Number × Text) :=
  let (negative, t) := match t with
    | c :: rest => if c.is '-' then (true, rest) else (false, t)
    | [] => (false, t)
  let length := Numeral.length t
  let numeral := t.take length
  if length = 0 then .error (.malformed .node)
  else if numeral.all CodePoint.isDecimal then
    let n : Int := Text.decimalValue numeral
    if Number.maxDigits < length then .error (.numeral length)
    else .ok (.int (if negative then -n else n), t.drop length)
  else
    let x := Numeral.binary64 numeral
    .ok (.float (if negative then x.neg else x), t.drop length)

mutual

/--
The data at the start of a text and the text after it. Each step uses up at least one code point, so
the length of the text is enough fuel.
-/
def readValue (fuel : Nat) (t : Text) : Except Unreadable (Value × Text) :=
  match fuel with
  | 0 => .error (.malformed .node)
  | fuel + 1 =>
    match skipSpace t with
    | [] => .error (.malformed .node)
    | c :: rest =>
      if c.is '[' then
        match skipSpace rest with
        | d :: after =>
          if d.is ']' then .ok (.list [], after) else do
            let (items, rest) ← readItems fuel rest
            return (.list items, rest)
        | [] => .error (.malformed .node)
      else if c.is '\x7b' then
        match skipSpace rest with
        | d :: after =>
          if d.is '\x7d' then .ok (.object [], after) else do
            let (entries, rest) ← readEntries fuel rest
            return (.object (Entries.ofPairs entries), rest)
        | [] => .error (.malformed .node)
      else if c.is '\x22' then
        (readString (rest.length + 1) rest).map fun (t, rest) => (.text t, rest)
      else if Text.startsWith (c :: rest) "true" then .ok (.bool true, rest.drop 3)
      else if Text.startsWith (c :: rest) "false" then .ok (.bool false, rest.drop 4)
      else if Text.startsWith (c :: rest) "null" then .ok (.null, rest.drop 3)
      else (readNumber (c :: rest)).map fun (n, rest) => (.number n, rest)

def readItems (fuel : Nat) (t : Text) : Except Unreadable (List Value × Text) :=
  match fuel with
  | 0 => .error (.malformed .sequence)
  | fuel + 1 => do
    let (item, rest) ← readValue fuel t
    match skipSpace rest with
    | c :: rest =>
      if c.is ']' then return ([item], rest)
      else if c.is ',' then
        match skipSpace rest with
        | d :: after =>
          if d.is ']' then return ([item], after) else do
            let (items, rest) ← readItems fuel rest
            return (item :: items, rest)
        | [] => throw (.malformed .node)
      else throw (.malformed .sequence)
    | [] => throw (.malformed .sequence)

def readEntries (fuel : Nat) (t : Text) : Except Unreadable (List (Text × Value) × Text) :=
  match fuel with
  | 0 => .error (.malformed .mapping)
  | fuel + 1 => do
    let (key, rest) ← readValue fuel t
    match key, skipSpace rest with
    | .text key, c :: rest =>
      if c.is ':' then
        let (value, rest) ← readValue fuel rest
        match skipSpace rest with
        | c :: rest =>
          if c.is '\x7d' then return ([(key, value)], rest)
          else if c.is ',' then
            match skipSpace rest with
            | d :: after =>
              if d.is '\x7d' then return ([(key, value)], after) else do
                let (entries, rest) ← readEntries fuel rest
                return ((key, value) :: entries, rest)
            | [] => throw (.malformed .node)
          else throw (.malformed .mapping)
        | [] => throw (.malformed .mapping)
      else throw (.malformed .mapping)
    | _, _ => throw (.malformed .mapping)

end

/--
The data that a whole text denotes. A blank text denotes null.
-/
def read (t : Text) : Except Unreadable Value :=
  if (skipSpace t).isEmpty then .ok .null else do
    let (v, rest) ← readValue (2 * t.length + 2) t
    if (skipSpace rest).isEmpty then return v else throw (.malformed .node)

end Value

end PageBinding
