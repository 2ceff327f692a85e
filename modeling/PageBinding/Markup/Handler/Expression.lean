import PageBinding.Markup.Handler.Token

/-!
This module contains the expressions that literals are written as. A text is read twice if it is no
expression: the second time for the mistake that explains it best.
-/

namespace PageBinding

namespace Markup

namespace Handler

structure Operand where
  description : Text
  isLiteral : Bool
  deriving DecidableEq, Repr

namespace Operand

def evaluated (description : Text) : Operand :=
  ⟨description, false⟩

def number (isImaginary : Bool) : Operand :=
  ⟨if isImaginary then "imaginary" else "real", true⟩

def word (x : Operand) : Text :=
  if x.description ∈ List.map Text.ofString ["real", "imaginary", "text"] then "literal"
  else if x.description = Text.ofString "signed" then "expression"
  else if x.description = Text.ofString "set" then "name"
  else x.description

def signed (x : Operand) : Operand :=
  if x.description ∈ List.map Text.ofString ["real", "imaginary"] then
    ⟨if x.description = Text.ofString "real" then "signed" else "expression", true⟩
  else evaluated "expression"

/--
The sum or difference of two expressions, which is a value if a real and an imaginary number are
added.
-/
def sum (x y : Operand) : Operand :=
  ⟨"expression", (x.description = Text.ofString "real" || x.description = Text.ofString "signed") &&
    y.description = Text.ofString "imaginary"⟩

end Operand

abbrev Answer := Except LiteralFault (Option (Operand × List Token))

/--
The text of the token that comes next. No text may end inside of brackets, and there must be no
stray backslash.
-/
def next (ts : List Token) : Except LiteralFault Text :=
  match ts with
  | [] => .ok []
  | t :: _ =>
    match t.kind with
    | .unclosed => .error (.neverClosed t.text)
    | .stray => .error .continuation
    | .name | .sign => .ok t.text
    | _ => .ok []

def keywords : List Text :=
  Text.words <| Text.concat [
    "False None True and as assert async await break class continue def del elif else except ",
    "finally for from global if import in is lambda nonlocal not or pass raise return try while ",
    "with yield"]

def softKeywords : List Text :=
  ["_", "case", "match"]

def Token.isName (t : Token) : Bool :=
  t.kind = .name && t.text ∉ keywords

def Token.isQuoted (t : Token) : Bool :=
  match t.kind with
  | .quoted .. => true
  | _ => false

def operators : List (List (List Text)) := [
  [["or"]],
  [["and"]],
  [],
  [["=="], ["!="], ["<="], ["<"], [">="], [">"], ["not", "in"], ["in"], ["is", "not"], ["is"]],
  [["|"]],
  [["^"]],
  [["&"]],
  [["<<"], [">>"]],
  [["+"], ["-"]],
  [["*"], ["/"], ["//"], ["%"], ["@"]]]

def notLevel : Nat :=
  2

def comparisonLevel : Nat :=
  3

def bitwiseLevel : Nat :=
  4

def sumLevel : Nat :=
  8

def signLevel : Nat :=
  10

def afterOperator? (operator : List Text) (ts : List Token) :
    Except LiteralFault (Option (List Token)) :=
  match operator with
  | [] => return some ts
  | word :: rest => do
    if (← next ts) = word then afterOperator? rest ts.tail else return none

def afterAnyOperator? (operators : List (List Text)) (ts : List Token) :
    Except LiteralFault (Option (List Token)) :=
  match operators with
  | [] => return none
  | operator :: rest => do
    match ← afterOperator? operator ts with
    | some ts => return some ts
    | none => afterAnyOperator? rest ts

def joined (level : Nat) (x y : Operand) : Operand :=
  if level = comparisonLevel then .evaluated "comparison"
  else if level = sumLevel then x.sum y
  else .evaluated "expression"

def quotedTexts (ts : List Token) : Answer :=
  let quoted := ts.takeWhile Token.isQuoted
  let isBytes (t : Token) : Bool := t.kind matches .quoted true _
  let isMixed (t : Token) : Bool := t.kind matches .quoted _ true
  if quoted.any isBytes && !quoted.all isBytes then .error .mixture
  else if quoted.any isMixed then
    .ok (some (.evaluated "f-string expression", ts.drop quoted.length))
  else .ok (some (⟨"text", true⟩, ts.drop quoted.length))

def depthBefore (ts rest : List Token) : Nat :=
  ((ts.take (ts.length - rest.length)).getLast?.map Token.depth).getD 0

def isFollowedBy (sign : Text) (ts : List Token) : Except LiteralFault Bool := do
  if ts.head?.any Token.isName then return (← next ts.tail) = sign else return false

/--
The names, stars and slashes that a function without a name takes, and the tokens after them. Every
token that may stand there is allowed anywhere.
-/
def afterParameters (ts : List Token) : List Token :=
  ts.dropWhile fun t => t.isName || t.text ∈ List.map Text.ofString [",", "*", "**", "/"]

mutual

def expressions (fuel : Nat) (isStrict mayStar : Bool) (ts : List Token) : Answer :=
  match fuel with
  | 0 => return none
  | fuel + 1 => do
    let word ← next ts
    let item (ts : List Token) : Answer := do
      if mayStar && word = Text.ofString "*" then
        let operand ← operation fuel isStrict bitwiseLevel ts.tail
        return operand.map fun (_, rest) => (.evaluated "starred", rest)
      else expression fuel isStrict ts
    match ← item ts with
    | none => return none
    | some (x, rest) =>
      if (← next rest) = Text.ofString "," then
        match ← expressions fuel isStrict mayStar rest.tail with
        | some (y, rest) => return some (⟨"tuple", x.isLiteral && y.isLiteral⟩, rest)
        | none => return some (⟨"tuple", x.isLiteral⟩, rest.tail)
      else return some (x, rest)

/--
An expression. Read strictly, it is a mistake if an expression inside of brackets is followed by
another one, if a condition has one branch only, and if a statement stands for a call.
-/
def expression (fuel : Nat) (isStrict : Bool) (ts : List Token) : Answer :=
  match fuel with
  | 0 => return none
  | fuel + 1 => do
    let _ ← next ts
    let startsText := ts.head?.any Token.isName && ts.tail.head?.any Token.isQuoted
    let isSoft := ts.head?.any fun t => t.kind = .name && t.text ∈ softKeywords
    let command := ((ts.head?.filter Token.isName).map Token.text).getD []
    let isCommand := command ∈ List.map Text.ofString ["print", "exec"]
    let first ← operation fuel isStrict 0 ts
    if isStrict then
      match first with
      | some (x, rest) =>
        if !startsText && !isSoft then
          match ← expression fuel false rest with
          | some (_, after) =>
            let isLegacy := x.description = Text.ofString "name" && isCommand
            if !isLegacy && depthBefore ts after ≠ 0 then throw .missingComma
          | none => pure ()
        if (← next rest) = Text.ofString "if" then
          match ← operation fuel isStrict 0 rest.tail with
          | some (_, after) =>
            let word ← next after
            if word ≠ Text.ofString "else" && word ≠ Text.ofString ":" then throw .missingElse
          | none => pure ()
      | none => pure ()
      if !command.isEmpty then
        if (← next ts.tail) ≠ Text.ofString "(" then
          match ← expressions fuel isStrict true ts.tail with
          | some _ => if isCommand then throw (.missingParentheses command)
          | none => pure ()
    match first with
    | some (x, rest) =>
      if (← next rest) = Text.ofString "if" then
        match ← operation fuel isStrict 0 rest.tail with
        | some (_, after) =>
          if (← next after) = Text.ofString "else" then
            match ← expression fuel isStrict after.tail with
            | some (_, rest) => return some (.evaluated "conditional expression", rest)
            | none => return some (x, rest)
          else return some (x, rest)
        | none => return some (x, rest)
      else return some (x, rest)
    | none =>
      if (← next ts) = Text.ofString "lambda" then
        let after := afterParameters ts.tail
        if (← next after) = Text.ofString ":" then
          let body ← expression fuel isStrict after.tail
          return body.map fun (_, rest) => (.evaluated "lambda", rest)
        else return none
      else return none

/--
An expression that may be given a name. Read strictly, it is a mistake if an equals sign or a
name's sign stands after what cannot be named.
-/
def named (fuel : Nat) (isStrict : Bool) (ts : List Token) : Answer :=
  match fuel with
  | 0 => return none
  | fuel + 1 => do
    let _ ← next ts
    let isNamed ← isFollowedBy ":=" ts
    let value ← if isNamed then expression fuel isStrict (ts.drop 2) else pure none
    match value with
    | some (_, rest) => return some (.evaluated "named expression", rest)
    | none =>
      let whole ← expression fuel isStrict ts
      if isStrict then
        match whole with
        | some (x, rest) =>
          if (← next rest) = Text.ofString ":=" then
            match ← expression fuel isStrict rest.tail with
            | some _ => throw (.namedAssignment x.word)
            | none => pure ()
        | none => pure ()
        match ← operation fuel false bitwiseLevel ts with
        | some (x, rest) =>
          let isKept := x.description ∈
            List.map Text.ofString ["tuple", "generator expression", "True", "None", "False"]
          if (← next rest) = Text.ofString "=" && !isKept then
            match ← operation fuel isStrict bitwiseLevel rest.tail with
            | some (_, after) =>
              let word ← next after
              if word ≠ Text.ofString "=" && word ≠ Text.ofString ":=" then
                if x.word = Text.ofString "name" then throw (.assignment none)
                else throw (.assignment (some x.word))
            | none => pure ()
        | none => pure ()
      match whole with
      | some (_, rest) =>
        if (← next rest) = Text.ofString ":=" then return none else return whole
      | none => return none

def members (fuel : Nat) (isStrict : Bool) (ts : List Token) : Answer :=
  match fuel with
  | 0 => return none
  | fuel + 1 => do
    match ← member fuel isStrict ts with
    | none => return none
    | some (x, rest) =>
      if (← next rest) = Text.ofString "," then
        match ← members fuel isStrict rest.tail with
        | some (y, rest) => return some (⟨"tuple", x.isLiteral && y.isLiteral⟩, rest)
        | none => return some (⟨"tuple", x.isLiteral⟩, rest.tail)
      else return some (x, rest)

def member (fuel : Nat) (isStrict : Bool) (ts : List Token) : Answer :=
  match fuel with
  | 0 => return none
  | fuel + 1 => do
    if (← next ts) = Text.ofString "*" then
      let operand ← operation fuel isStrict bitwiseLevel ts.tail
      return operand.map fun (_, rest) => (.evaluated "starred", rest)
    else named fuel isStrict ts

def operation (fuel : Nat) (isStrict : Bool) (level : Nat) (ts : List Token) : Answer :=
  match fuel with
  | 0 => return none
  | fuel + 1 => do
    let word ← next ts
    if level = notLevel then
      if word = Text.ofString "not" then
        let operand ← operation fuel isStrict notLevel ts.tail
        return operand.map fun (_, rest) => (.evaluated "expression", rest)
      else operation fuel isStrict (level + 1) ts
    else if signLevel ≤ level then
      if word ∈ List.map Text.ofString ["+", "-", "~"] then
        let operand ← operation fuel isStrict signLevel ts.tail
        return operand.map fun (x, rest) =>
          (if word = Text.ofString "~" then .evaluated "expression" else x.signed, rest)
      else power fuel isStrict ts
    else
      match ← operation fuel isStrict (level + 1) ts with
      | some (x, rest) => moreOperands fuel isStrict level x rest
      | none => return none

def moreOperands (fuel : Nat) (isStrict : Bool) (level : Nat) (x : Operand) (ts : List Token) :
    Answer :=
  match fuel with
  | 0 => return none
  | fuel + 1 => do
    match ← afterAnyOperator? (operators.getD level []) ts with
    | none => return some (x, ts)
    | some after =>
      match ← operation fuel isStrict (level + 1) after with
      | some (y, rest) => moreOperands fuel isStrict level (joined level x y) rest
      | none => return some (x, ts)

def power (fuel : Nat) (isStrict : Bool) (ts : List Token) : Answer :=
  match fuel with
  | 0 => return none
  | fuel + 1 => do
    let isAwait := (← next ts) = Text.ofString "await"
    let base ← match ← atom fuel isStrict (if isAwait then ts.tail else ts) with
      | some (x, rest) => trailers fuel isStrict x rest
      | none => pure none
    let base := if isAwait then base.map fun (_, rest) => (.evaluated "await expression", rest)
      else base
    match base with
    | none => return none
    | some (x, rest) =>
      if (← next rest) = Text.ofString "**" then
        match ← operation fuel isStrict signLevel rest.tail with
        | some (_, rest) => return some (.evaluated "expression", rest)
        | none => return some (x, rest)
      else return some (x, rest)

def trailers (fuel : Nat) (isStrict : Bool) (x : Operand) (ts : List Token) : Answer :=
  match fuel with
  | 0 => return none
  | fuel + 1 => do
    let word ← next ts
    if word = Text.ofString "." then
      let _ ← next ts.tail
      if ts.tail.head?.any Token.isName then
        trailers fuel isStrict (.evaluated "attribute") (ts.drop 2)
      else return some (x, ts)
    else if word = Text.ofString "(" then
      match ← arguments fuel isStrict ts.tail with
      | some (y, rest) =>
        let isEmptySet := x.description = Text.ofString "set" && y.isLiteral
        trailers fuel isStrict ⟨"function call", isEmptySet⟩ rest
      | none => return some (x, ts)
    else return some (x, ts)

def arguments (fuel : Nat) (isStrict : Bool) (ts : List Token) : Answer :=
  match fuel with
  | 0 => return none
  | fuel + 1 => do
    let word ← next ts
    if word = Text.ofString ")" then return some (⟨"arguments", true⟩, ts.tail)
    else
      let isNamed ← isFollowedBy "=" ts
      let argument ←
        if word = Text.ofString "*" then starred fuel isStrict ts.tail
        else if word = Text.ofString "**" then expression fuel isStrict ts.tail
        else if isNamed then expression fuel isStrict (ts.drop 2)
        else named fuel isStrict ts
      match argument with
      | none => return none
      | some (_, rest) =>
        let rest ← clauses fuel isStrict rest
        let word ← next rest
        if word = Text.ofString ")" then return some (.evaluated "arguments", rest.tail)
        else if word = Text.ofString "," then arguments fuel isStrict rest.tail
        else return none

def clauses (fuel : Nat) (isStrict : Bool) (ts : List Token) :
    Except LiteralFault (List Token) :=
  match fuel with
  | 0 => return ts
  | fuel + 1 => do
    let start := if (← next ts) = Text.ofString "async" then ts.tail else ts
    if (← next start) ≠ Text.ofString "for" then return ts
    match ← targets fuel isStrict start.tail with
    | none => return ts
    | some (_, rest) =>
      if (← next rest) ≠ Text.ofString "in" then return ts
      match ← operation fuel isStrict 0 rest.tail with
      | none => return ts
      | some (_, rest) => clauses fuel isStrict (← conditions fuel isStrict rest)

def starred (fuel : Nat) (isStrict : Bool) (ts : List Token) : Answer :=
  match fuel with
  | 0 => return none
  | fuel + 1 => do
    match ← expression fuel isStrict ts with
    | some (_, rest) => return some (.evaluated "starred", rest)
    | none => if isStrict then throw .star else return none

def targets (fuel : Nat) (isStrict : Bool) (ts : List Token) : Answer :=
  match fuel with
  | 0 => return none
  | fuel + 1 => do
    let start := if (← next ts) = Text.ofString "*" then ts.tail else ts
    match ← power fuel isStrict start with
    | none => return none
    | some (x, rest) =>
      if (← next rest) = Text.ofString "," then
        match ← targets fuel isStrict rest.tail with
        | some (_, rest) => return some (.evaluated "tuple", rest)
        | none => return some (.evaluated "tuple", rest.tail)
      else return some (x, rest)

def conditions (fuel : Nat) (isStrict : Bool) (ts : List Token) :
    Except LiteralFault (List Token) :=
  match fuel with
  | 0 => return ts
  | fuel + 1 => do
    if (← next ts) ≠ Text.ofString "if" then return ts
    match ← operation fuel isStrict 0 ts.tail with
    | some (_, rest) => conditions fuel isStrict rest
    | none => return ts

def atom (fuel : Nat) (isStrict : Bool) (ts : List Token) : Answer :=
  match fuel with
  | 0 => return none
  | fuel + 1 => do
    let word ← next ts
    match ts with
    | [] => return none
    | t :: rest =>
      match t.kind with
      | .number isImaginary => return some (.number isImaginary, rest)
      | .quoted .. => quotedTexts ts
      | .name =>
        if word ∈ List.map Text.ofString ["True", "False", "None"] then
          return some (⟨word, true⟩, rest)
        else if t.isName then
          return some (.evaluated (if word = Text.ofString "set" then "set" else "name"), rest)
        else return none
      | .sign =>
        if word = Text.ofString "..." then return some (⟨"ellipsis", true⟩, rest)
        else if word = Text.ofString "(" then parenthesized fuel isStrict rest
        else if word = Text.ofString "\x7b" then braced fuel isStrict rest
        else return none
      | _ => return none

def parenthesized (fuel : Nat) (isStrict : Bool) (ts : List Token) : Answer :=
  match fuel with
  | 0 => return none
  | fuel + 1 => do
    let word ← next ts
    let close (x : Operand) (rest : List Token) : Answer := do
      if (← next rest) = Text.ofString ")" then return some (x, rest.tail) else return none
    if word = Text.ofString ")" then return some (⟨"tuple", true⟩, ts.tail)
    else if word = Text.ofString "yield" then
      let isFrom := (← next ts.tail) = Text.ofString "from"
      match ← expressions fuel isStrict (!isFrom) (if isFrom then ts.drop 2 else ts.tail) with
      | some (_, rest) => close (.evaluated "yield expression") rest
      | none => if isFrom then return none else close (.evaluated "yield expression") ts.tail
    else
      match ← member fuel isStrict ts with
      | some (x, rest) =>
        let word ← next rest
        let isStarred := x.description = Text.ofString "starred"
        if word = Text.ofString "," then
          match ← members fuel isStrict rest.tail with
          | some (y, rest) => close ⟨"tuple", x.isLiteral && y.isLiteral⟩ rest
          | none => close ⟨"tuple", x.isLiteral⟩ rest.tail
        else if word = Text.ofString ")" then
          if !isStarred then return some (x, rest.tail)
          else if isStrict then throw (.starred false)
          else return none
        else if isStarred then
          if isStrict then
            let _ ← starred fuel isStrict ts.tail
          return none
        else
          let after ← clauses fuel isStrict rest
          if after.length = rest.length then return none
          else close (.evaluated "generator expression") after
      | none =>
        if isStrict && word = Text.ofString "*" then
          let _ ← starred fuel isStrict ts.tail
          return none
        else if isStrict && word = Text.ofString "**" then
          match ← expression fuel isStrict ts.tail with
          | some (_, rest) =>
            if (← next rest) = Text.ofString ")" then throw (.starred true) else return none
          | none => return none
        else return none

def braced (fuel : Nat) (isStrict : Bool) (ts : List Token) : Answer :=
  match fuel with
  | 0 => return none
  | fuel + 1 => do
    let word ← next ts
    let close (x : Operand) (rest : List Token) : Answer := do
      if (← next rest) = Text.ofString "\x7d" then return some (x, rest.tail) else return none
    if word = Text.ofString "\x7d" then return some (⟨"dict literal", true⟩, ts.tail)
    else
      match ← entry fuel isStrict true ts with
      | some (x, rest) =>
        let word ← next rest
        if word = Text.ofString "," then
          match ← entries fuel isStrict rest.tail with
          | some (y, rest) => close ⟨"dict literal", x.isLiteral && y.isLiteral⟩ rest
          | none => close ⟨"dict literal", x.isLiteral⟩ rest.tail
        else if word = Text.ofString "\x7d" then
          return some (⟨"dict literal", x.isLiteral⟩, rest.tail)
        else
          let after ← clauses fuel isStrict rest
          if after.length = rest.length then return none
          else close (.evaluated "dict comprehension") after
      | none =>
        match ← members fuel isStrict ts with
        | some (x, rest) =>
          if (← next rest) = Text.ofString "\x7d" then
            return some (⟨"set display", x.isLiteral⟩, rest.tail)
          else
            let after ← clauses fuel isStrict rest
            if after.length = rest.length then return none
            else close (.evaluated "set comprehension") after
        | none =>
          if isStrict && word = Text.ofString "*" then
            let _ ← starred fuel isStrict ts.tail
            return none
          else return none

def entries (fuel : Nat) (isStrict : Bool) (ts : List Token) : Answer :=
  match fuel with
  | 0 => return none
  | fuel + 1 => do
    match ← entry fuel isStrict false ts with
    | none => return none
    | some (x, rest) =>
      if (← next rest) = Text.ofString "," then
        match ← entries fuel isStrict rest.tail with
        | some (y, rest) => return some (⟨"entries", x.isLiteral && y.isLiteral⟩, rest)
        | none => return some (x, rest.tail)
      else return some (x, rest)

/--
An entry of a dictionary. Read strictly, it is a mistake if it has no value, and if it is not the
first one also if it has no colon.
-/
def entry (fuel : Nat) (isStrict isFirst : Bool) (ts : List Token) : Answer :=
  match fuel with
  | 0 => return none
  | fuel + 1 => do
    if (← next ts) = Text.ofString "**" then
      let operand ← operation fuel isStrict bitwiseLevel ts.tail
      return operand.map fun (_, rest) => (.evaluated "entry", rest)
    else
      match ← expression fuel isStrict ts with
      | none => return none
      | some (x, rest) =>
        if (← next rest) = Text.ofString ":" then
          match ← expression fuel isStrict rest.tail with
          | some (y, rest) => return some (⟨"entry", x.isLiteral && y.isLiteral⟩, rest)
          | none =>
            let word ← next rest.tail
            if !isStrict then return none
            else if word = Text.ofString "*" then
              match ← operation fuel isStrict bitwiseLevel (rest.drop 2) with
              | some _ => throw .starredEntryValue
              | none => return none
            else if word = Text.ofString "\x7d" || word = Text.ofString "," then
              throw .missingEntryValue
            else return none
        else if isStrict && !isFirst then throw .missingEntryColon
        else return none

end

def whole (isStrict : Bool) (ts : List Token) : Except LiteralFault (Option Operand) := do
  match ← expressions (40 * (ts.length + 2)) isStrict false ts with
  | none => return none
  | some (x, rest) =>
    match rest.dropWhile fun t => t.kind = .newline with
    | [] => return some x
    | t :: _ => return if t.kind = .finish then some x else none

end Handler

end Markup

end PageBinding
