import PageBinding.Console.Wrap
import PageBinding.Markup

/-!
This module contains what commands print: lines of text, and tables whose rows are told apart from
lines. Styles and borders are not part of it.
-/

namespace PageBinding

inductive Line where
  | text (t : Text)
  | row (cells : List Text)
  deriving DecidableEq, Repr

def Line.printed : Line → Text
  | .text t => Text.concat [t, "\n"]
  | .row cells => Text.concat [Text.concat cells, "\n"]

namespace Console

def linesOf (markup : Text) : Except Failure (List Text) := do
  let printed ← Markup.printed markup
  printed.checkStyles
  return printed.text.lines.map expandTabs

def unencodable (t advice : Text) : Failure :=
  let before := t.takeWhile fun c => !c.isSurrogate
  let start := before.length
  let place := match (t.drop start).takeWhile CodePoint.isSurrogate with
    | [c] => Text.concat ["character '\\u", Text.hex c.val, "' in position ", Text.ofNat start]
    | run =>
      Text.concat [
        "characters in position ", Text.ofNat start, "-", Text.ofNat (start + run.length - 1)]
  .raised "UnicodeEncodeError"
    (Text.concat ["'utf-8' codec can't encode ", place, ": surrogates not allowed", advice])

def encoded (advice : Text) (lines : List Line) : Except Failure (List Line) :=
  let t := lines.flatMap Line.printed
  if t.any CodePoint.isSurrogate then .error (unencodable t advice) else .ok lines

def encodingAdvice : Text :=
  "\n*** You may need to add PYTHONIOENCODING=utf-8 to your environment ***"

def plain (t : Text) : Except Failure (List Line) :=
  encoded [] (t.lines.map Line.text)

def styled (markup : Text) : Except Failure (List Line) := do
  encoded encodingAdvice ((← linesOf markup).map Line.text)

def slice {α : Type} (default : α) (items : List (List α)) (i : Nat) : List α :=
  items.map fun item => item.getD i default

def height {α : Type} (items : List (List α)) : Nat :=
  (items.map List.length).foldl Nat.max 0

def rowLines (cells : List (List Text)) : List Line :=
  (List.range (height cells)).map fun i => .row ((slice [] cells i).map Text.trim)

def wrapColumn (cells : List Text) : List (List Text) :=
  let width := (cells.map columnWidth).foldl Nat.max 0
  cells.map (wrap width)

/--
The lines of a table that is given by its columns, all of one height. The cells hold markup, and it
fails where the first of the columns does. Styles are applied only after that, row by row.
-/
def table (columns : List (List Text)) : Except Failure (List Line) := do
  let columns ← columns.mapM fun column => column.mapM Markup.printed
  let rows := List.range (height columns)
  rows.forM fun i => (slice ⟨[], []⟩ columns i).forM Markup.Printed.checkStyles
  let wrapped := columns.map fun column => wrapColumn (column.map Markup.Printed.text)
  encoded encodingAdvice (rows.flatMap fun i => rowLines (slice [] wrapped i))

end Console

end PageBinding
