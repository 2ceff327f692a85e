import PageBinding.Markup.Emoji
import PageBinding.Markup.Handler
import PageBinding.Markup.Style

/-!
This module contains the markup of printed text: tags in brackets that open and close styles, and
codes for emoji. Styles themselves are not shown, so that of a tag only the ways are left in which
it can fail.
-/

namespace PageBinding

namespace Markup

def isTagStart (c : CodePoint) : Bool :=
  c.isBetween 'a' 'z' || c.is '#' || c.is '/' || c.is '@'

structure Bracketed where
  backslashes : Nat
  inner : Text
  rest : Text

def Bracketed.text (b : Bracketed) : Text :=
  Text.concat ["[", b.inner, "]"]

def Bracketed.length (b : Bracketed) : Nat :=
  b.backslashes + b.inner.length + 2

def bracketed? (t : Text) : Option Bracketed :=
  let backslashes := t.takeWhile (·.is '\\')
  match t.drop backslashes.length with
  | bracket :: first :: rest =>
    if bracket.is '[' && isTagStart first then
      let inner := rest.takeWhile fun c => !c.is '[' && !c.is ']'
      match rest.drop inner.length with
      | c :: rest => if c.is ']' then some ⟨backslashes.length, first :: inner, rest⟩ else none
      | [] => none
    else none
  | _ => none

def backslashes (n : Nat) : Text :=
  List.replicate n (.ofChar '\\')

def escape (t : Text) : Text :=
  let escaped := escapeTags t.length t
  match escaped.reverse with
  | last :: before =>
    if last.is '\\' && !(before.head?.any (·.is '\\')) then escaped ++ backslashes 1 else escaped
  | [] => escaped
where
  /-- Every step uses up at least one code point, so the length of the text is enough fuel. -/
  escapeTags (fuel : Nat) (t : Text) : Text :=
    match fuel, t with
    | 0, _ | _, [] => []
    | fuel + 1, c :: rest =>
      match bracketed? (c :: rest) with
      | some b => backslashes (2 * b.backslashes + 1) ++ b.text ++ escapeTags fuel b.rest
      | none => c :: escapeTags fuel rest

inductive Piece where
  | plain (t : Text)
  | tag (position : Nat) (name : Text) (parameters : Option Text)
  deriving DecidableEq, Repr

def Piece.ofInner (position : Nat) (inner : Text) : Piece :=
  let name := inner.takeWhile fun c => !c.is '='
  match inner.drop name.length with
  | [] => .tag position name none
  | _ :: parameters => .tag position name (some parameters)

/--
The pieces of a text from a position on, where some text has been passed since the last tag. An odd
number of backslashes before a tag makes it plain text. Every step uses up at least one code point,
so the length of the text is enough fuel.
-/
def pieces (fuel position : Nat) (passed t : Text) : List Piece :=
  match fuel, t with
  | 0, _ | _, [] => [.plain passed]
  | fuel + 1, c :: rest =>
    match bracketed? (c :: rest) with
    | none => pieces fuel (position + 1) (passed ++ [c]) rest
    | some b =>
      let piece :=
        if b.backslashes % 2 = 1 then .plain b.text
        else .ofInner (position + b.backslashes) b.inner
      .plain passed :: .plain (backslashes (b.backslashes / 2)) :: piece ::
        pieces fuel (position + b.length) [] b.rest

def unescape (t : Text) : Text :=
  match t with
  | [] => []
  | c :: rest =>
    if c.is '\\' && rest.head?.any (·.is '[') then unescape rest else c :: unescape rest

/--
Whether a code point is a control character that moves the cursor, which is not printed.
-/
def movesCursor (c : CodePoint) : Bool :=
  c.val = 7 || c.val = 8 || c.isBetween '\x0b' '\r'

def printedPlain (t : Text) : Text :=
  (Emoji.replace (unescape t)).filter fun c => !movesCursor c

/--
A tag that has been opened: the normal name of its style and what follows the equals sign.
-/
structure Opened where
  name : Text
  parameters : Option Text
  deriving DecidableEq, Repr

def Opened.style (tag : Opened) : Text :=
  match tag.parameters with
  | some parameters => Text.concat [tag.name, " ", parameters]
  | none => tag.name

/--
Fail if a tag, now that it is closed, stands for a handler that cannot be made out.
-/
def Opened.check (tag : Opened) : Except Failure Unit :=
  if tag.name.head?.any (·.is '@') then Handler.check (tag.parameters.getD []) else .ok ()

/--
Close the style that has been opened last, or the one with a given name. The result is what has been
closed and what is still open.
-/
def close (position : Nat) (name : Text) (parameters : Option Text) (opened : List Opened) :
    Except Failure (Opened × List Opened) := do
  let style := Text.trim (name.drop 1)
  if style.isEmpty then
    match opened with
    | tag :: opened => return (tag, opened)
    | [] => throw (.nothingToClose "[/]" position)
  else
    let style ← Style.normalName style
    match opened.find? (·.name = style) with
    | some tag => return (tag, opened.erase tag)
    | none =>
      let inner := match parameters with
        | some parameters => Text.concat [name, "=", parameters]
        | none => name
      throw (.unmatchedTag (Text.concat ["[", inner, "]"]) position)

structure Printed where
  text : Text
  styles : List Text
  deriving DecidableEq, Repr

namespace Printed

def add (printed : Printed) (opened : List Opened) (ps : List Piece) : Except Failure Printed :=
  match ps with
  | [] => return printed
  | .plain t :: rest => add { printed with text := printed.text ++ printedPlain t } opened rest
  | .tag position name parameters :: rest => do
    if name.head?.any (·.is '/') then
      let (tag, opened) ← close position name parameters opened
      tag.check
      add printed opened rest
    else
      let tag : Opened := ⟨← Style.normalName name, parameters⟩
      add { printed with styles := printed.styles ++ [tag.style] } (tag :: opened) rest

def checkStyles (printed : Printed) : Except Failure Unit :=
  printed.styles.forM fun style => discard (Style.ofText? style)

end Printed

/--
What markup is printed as. It fails where a tag closes a style that is not open.
-/
def printed (t : Text) : Except Failure Printed :=
  Printed.add ⟨[], []⟩ [] (pieces t.length 0 [] t)

end Markup

end PageBinding
