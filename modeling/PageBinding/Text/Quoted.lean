import PageBinding.Text.Printable

/-!
This module contains the quoted form in which messages show a text: between single quotes, or
between double quotes if the text has a single quote and no double one, with escapes for the
backslash, the quote and all that is not printable.
-/

namespace PageBinding

namespace Text

def paddedHex (width n : Nat) : Text :=
  let digits := hex n
  List.replicate (width - digits.length) (CodePoint.ofChar '0') ++ digits

def quotePoint (quote c : CodePoint) : Text :=
  if c = quote || c.is '\\' then [CodePoint.ofChar '\\', c]
  else if c.is '\n' then "\\n"
  else if c.is '\r' then "\\r"
  else if c.is '\t' then "\\t"
  else if c.isPrintable then [c]
  else if c.val < 0x100 then concat ["\\x", paddedHex 2 c.val]
  else if c.val < 0x10000 then concat ["\\u", paddedHex 4 c.val]
  else concat ["\\U", paddedHex 8 c.val]

def quoted (t : Text) : Text :=
  let quote := CodePoint.ofChar <|
    if t.any (·.is '\x27') && !t.any (·.is '\x22') then '\x22' else '\x27'
  concat [[quote], t.flatMap (quotePoint quote), [quote]]

end Text

end PageBinding
