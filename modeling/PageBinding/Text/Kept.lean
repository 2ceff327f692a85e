import PageBinding.Text

/-!
This module contains what becomes of a text that is kept in a project file. A file shows line breaks
as they are, and a next line character among them is read back as a line feed, or not at all, unless
the text is kept with escapes.
-/

namespace PageBinding

namespace CodePoint

def isNextLine (c : CodePoint) : Bool :=
  c.val == 0x85

def isLineBreak (c : CodePoint) : Bool :=
  c.is '\n' || c.isNextLine || c.val == 0x2028 || c.val == 0x2029

/--
Whether a file can show a code point without an escape: it is a line break or printed, and no mark
of the order of bytes.
-/
def isShown (c : CodePoint) : Bool :=
  let n := c.val
  c.isLineBreak || c.isBetween ' ' '~' ||
    (0xa0 ≤ n && n < 0x10ffff && !c.isSurrogate && n != 0xfeff && n != 0xfffe && n != 0xffff)

end CodePoint

namespace Text

def hasSpacedBreak : Text → Bool
  | [] | [_] => false
  | a :: b :: rest =>
    (a.is ' ' && b.isLineBreak) || (a.isLineBreak && b.is ' ') || hasSpacedBreak (b :: rest)

def isEscaped (t : Text) : Bool :=
  !t.all CodePoint.isShown || t.hasSpacedBreak

def keepBreak (c : CodePoint) : CodePoint :=
  if c.isNextLine then .ofChar '\n' else c

/--
What becomes of the line breaks in a text, where `inRun` says whether a line break comes right
before it. A next line character on its own becomes a space; one that begins several line breaks is
lost.
-/
def keepBreaks (inRun : Bool) : Text → Text
  | [] => []
  | c :: rest =>
    let after := keepBreaks c.isLineBreak rest
    if inRun then keepBreak c :: after
    else if c.isNextLine then
      if rest.head?.any CodePoint.isLineBreak then after else .ofChar ' ' :: after
    else c :: after

def kept (t : Text) : Text :=
  if t.isEscaped then t else keepBreaks false t

end Text

end PageBinding
