import PageBinding.Value

/-!
This module contains the JSON text of data, on one line or indented. Characters beyond ASCII are
written as they are.
-/

namespace PageBinding

namespace Text

def jsonEscape (c : CodePoint) : Text :=
  if c.is '\x22' then "\\\""
  else if c.is '\\' then "\\\\"
  else if c.is '\n' then "\\n"
  else if c.is '\r' then "\\r"
  else if c.is '\t' then "\\t"
  else if c.val = 8 then "\\b"
  else if c.val = 12 then "\\f"
  else if c.val < 32 then
    concat ["\\u00", if c.val < 16 then "0" else "", hex c.val]
  else [c]

def jsonQuote (t : Text) : Text :=
  concat ["\"", t.flatMap jsonEscape, "\""]

end Text

namespace Value

/--
The white space between the parts of a list or an object: after the opening bracket, after each
comma, and before the closing bracket.
-/
structure Spacing where
  opening : Text
  separator : Text
  closing : Text

def Spacing.at? : Option Nat → Spacing
  | none => ⟨"", ", ", ""⟩
  | some level =>
    let outer : Text := CodePoint.ofChar '\n' :: List.replicate (2 * level) (CodePoint.ofChar ' ')
    let inner : Text := Text.concat [outer, "  "]
    ⟨inner, Text.concat [",", inner], outer⟩

def bracket (level : Option Nat) (left right : Text) (parts : List Text) : Text :=
  if parts.isEmpty then
    Text.concat [left, right]
  else
    let spacing := Spacing.at? level
    Text.concat
      [left, spacing.opening, Text.join spacing.separator parts, spacing.closing, right]

mutual

/--
The JSON text of a piece of data, from a level of indentation on or on a single line. There is none
where an integer has too many digits.
-/
def json? (level : Option Nat) (v : Value) : Option Text :=
  match v with
  | .null => some "null"
  | .bool b => some (if b then "true" else "false")
  | .number n => n.dataText?
  | .text t => some t.jsonQuote
  | .list items => do
    let parts ← jsonItems? (level.map (· + 1)) items
    return bracket level "[" "]" parts
  | .object entries => do
    let parts ← jsonEntries? (level.map (· + 1)) entries
    return bracket level "\x7b" "\x7d" parts

def jsonItems? (level : Option Nat) (items : List Value) : Option (List Text) :=
  match items with
  | [] => some []
  | v :: rest => do
    let part ← json? level v
    let parts ← jsonItems? level rest
    return part :: parts

def jsonEntries? (level : Option Nat) (entries : List (Text × Value)) : Option (List Text) :=
  match entries with
  | [] => some []
  | (key, v) :: rest => do
    let part ← json? level v
    let parts ← jsonEntries? level rest
    return Text.concat [key.jsonQuote, ": ", part] :: parts

end

end Value

end PageBinding
