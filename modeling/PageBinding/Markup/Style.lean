import PageBinding.Failure
import PageBinding.Text.Case
import PageBinding.Text.Digit

/-!
This module contains the names of styles in markup. Styles that look the same have the same normal
name, so that a closing tag can be told to belong to an opening one.
-/

namespace PageBinding

namespace Markup

def features : List Text := [
  "bold", "dim", "italic", "underline", "blink", "blink2", "reverse", "conceal", "strike",
  "underline2", "frame", "encircle", "overline"]

def shortNames : List (Text × Text) := [
  ("b", "bold"), ("d", "dim"), ("i", "italic"), ("u", "underline"), ("r", "reverse"),
  ("c", "conceal"), ("s", "strike"), ("uu", "underline2"), ("o", "overline")]

def feature? (word : Text) : Option Text :=
  if word ∈ features then some word
  else (shortNames.find? (·.1 = word)).map Prod.snd

def colourNames : List Text :=
  Text.words <| Text.concat [
    "default black red green yellow blue magenta cyan white bright_black bright_red bright_green ",
    "bright_yellow bright_blue bright_magenta bright_cyan bright_white navy_blue dark_blue blue3 ",
    "blue1 dark_green deep_sky_blue4 dodger_blue3 dodger_blue2 green4 spring_green4 turquoise4 ",
    "deep_sky_blue3 dodger_blue1 green3 spring_green3 dark_cyan light_sea_green deep_sky_blue2 ",
    "deep_sky_blue1 spring_green2 cyan3 dark_turquoise turquoise2 green1 spring_green1 ",
    "medium_spring_green cyan2 cyan1 dark_red deep_pink4 purple4 purple3 blue_violet orange4 ",
    "medium_purple4 slate_blue3 royal_blue1 chartreuse4 dark_sea_green4 pale_turquoise4 ",
    "steel_blue steel_blue3 cornflower_blue chartreuse3 cadet_blue sky_blue3 steel_blue1 ",
    "pale_green3 sea_green3 aquamarine3 medium_turquoise chartreuse2 sea_green2 sea_green1 ",
    "aquamarine1 dark_slate_gray2 dark_magenta dark_violet purple light_pink4 plum4 ",
    "medium_purple3 slate_blue1 yellow4 wheat4 light_slate_grey light_slate_gray medium_purple ",
    "light_slate_blue dark_olive_green3 dark_sea_green light_sky_blue3 sky_blue2 ",
    "dark_sea_green3 dark_slate_gray3 sky_blue1 chartreuse1 light_green pale_green1 ",
    "dark_slate_gray1 red3 medium_violet_red magenta3 dark_orange3 indian_red hot_pink3 ",
    "medium_orchid3 medium_orchid medium_purple2 dark_goldenrod light_salmon3 rosy_brown ",
    "medium_purple1 gold3 dark_khaki navajo_white3 light_steel_blue3 light_steel_blue yellow3 ",
    "dark_sea_green2 light_cyan3 light_sky_blue1 green_yellow dark_olive_green2 ",
    "dark_sea_green1 pale_turquoise1 deep_pink3 magenta2 hot_pink2 orchid medium_orchid1 ",
    "orange3 light_pink3 pink3 plum3 violet light_goldenrod3 tan misty_rose3 thistle3 plum2 ",
    "khaki3 light_goldenrod2 light_yellow3 light_steel_blue1 yellow2 dark_olive_green1 ",
    "honeydew2 light_cyan1 red1 deep_pink2 deep_pink1 magenta1 orange_red1 indian_red1 ",
    "hot_pink dark_orange salmon1 light_coral pale_violet_red1 orchid2 orchid1 orange1 ",
    "sandy_brown light_salmon1 light_pink1 pink1 plum1 gold1 navajo_white1 misty_rose1 ",
    "thistle1 yellow1 light_goldenrod1 khaki1 wheat1 cornsilk1"]

def greyLevels : List Nat := [
  0, 3, 7, 11, 15, 19, 23, 27, 30, 35, 37, 39, 42, 46, 50, 53, 54, 58, 62, 63, 66, 69, 70, 74, 78,
  82, 84, 85, 89, 93, 100]

def greyNames : List Text :=
  greyLevels.flatMap fun level =>
    [Text.concat ["grey", Text.ofNat level], Text.concat ["gray", Text.ofNat level]]

def between? (opening closing t : Text) : Option Text :=
  if Text.startsWith t opening then Text.dropEnd? (t.drop opening.length) closing else none

def maxLevel : Nat :=
  255

def isColourNumber (t : Text) : Bool :=
  !t.isEmpty && t.length ≤ 3 && t.all CodePoint.isAsciiDigit && t.decimalValue ≤ maxLevel

def level (digits : Text) : Except Failure Nat :=
  if digits.isEmpty then .error (.notNumeral [])
  else if Number.maxDigits < digits.length then .error (.numeralTooLong (some digits.length))
  else .ok digits.decimalValue

/--
Whether a text is the components of a colour: three levels between commas. It fails where one of
three runs of digits denotes no number.
-/
def isMixture (t : Text) : Except Failure Bool := do
  let components := t.splitAt (·.is ',')
  if components.length ≠ 3 || !t.all (fun c => c.isDecimal || c.is ',') then return false
  let levels ← components.mapM level
  return levels.all (· ≤ maxLevel)

/--
Whether a word in small letters is a colour: by name, by number, or by its components.
-/
def isColour (word : Text) : Except Failure Bool :=
  let isHexDigit (c : CodePoint) : Bool := c.isAsciiDigit || c.isBetween 'a' 'f'
  let isHex := match word with
    | c :: digits => c.is '#' && digits.length == 6 && digits.all isHexDigit
    | [] => false
  let isNumbered := (between? "color(" ")" word).any isColourNumber
  if isHex || isNumbered || colourNames.contains word || greyNames.contains word then .ok true
  else
    match between? "rgb(" ")" word with
    | some components => isMixture components
    | none => .ok false

structure Style where
  switches : List (Text × Bool)
  colour : Option Text
  background : Option Text
  link : Option Text
  deriving DecidableEq, Repr

namespace Style

def plain : Style :=
  ⟨[], none, none, none⟩

def switch (style : Style) (feature : Text) (on : Bool) : Style :=
  { style with switches := (feature, on) :: style.switches }

def addWords? (style : Style) (ws : List Text) : Except Failure (Option Style) :=
  match ws with
  | [] => return some style
  | word :: rest => do
    let word := word.lower
    if word = Text.ofString "on" then
      match rest with
      | [] => return none
      | colour :: rest =>
        let colour := colour.lower
        let known ← isColour colour
        if known then addWords? { style with background := some colour } rest else return none
    else if word = Text.ofString "not" then
      match rest with
      | [] => return none
      | name :: rest =>
        match feature? name with
        | some feature => (style.switch feature false).addWords? rest
        | none => return none
    else if word = Text.ofString "link" then
      match rest with
      | [] => return none
      | target :: rest => addWords? { style with link := some target } rest
    else
      match feature? word with
      | some feature => (style.switch feature true).addWords? rest
      | none =>
        let known ← isColour word
        if known then addWords? { style with colour := some word } rest else return none

/--
The normal name of a style. Of several settings of a feature the last one counts.
-/
def name (style : Style) : Text :=
  let switched := features.filterMap fun feature =>
    match style.switches.find? (·.1 = feature) with
    | some (_, true) => some feature
    | some (_, false) => some (Text.concat ["not ", feature])
    | none => none
  let parts := switched ++ style.colour.toList ++
    (style.background.toList.map fun t => Text.concat ["on ", t]) ++
    (style.link.toList.map fun t => Text.concat ["link ", t])
  if parts.isEmpty then "none" else Text.join " " parts

def ofText? (t : Text) : Except Failure (Option Style) :=
  if t.trim = Text.ofString "none" then return some plain else plain.addWords? t.words

/--
The normal name of the style that a text names. A text that names none stands for itself, whatever
its case.
-/
def normalName (t : Text) : Except Failure Text := do
  match ← ofText? t with
  | some style => return style.name
  | none => return t.trim.lower

end Style

end Markup

end PageBinding
