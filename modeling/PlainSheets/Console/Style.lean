import PlainSheets.Failure
import PlainSheets.Text.Blank
import PlainSheets.Text.Digit
import PlainSheets.Text.Lower

/-!
The styles that tags name: marks such as bold, a colour, a colour behind the text, and a link. Words that
say the same style in different ways have one canonical form.
-/
namespace PlainSheets.Console

private def colorNames : String :=
  "black red green yellow blue magenta cyan white bright_black bright_red bright_green
bright_yellow bright_blue bright_magenta bright_cyan bright_white grey0 gray0 navy_blue
dark_blue blue3 blue1 dark_green deep_sky_blue4 dodger_blue3 dodger_blue2 green4 spring_green4
turquoise4 deep_sky_blue3 dodger_blue1 green3 spring_green3 dark_cyan light_sea_green
deep_sky_blue2 deep_sky_blue1 spring_green2 cyan3 dark_turquoise turquoise2 green1 spring_green1
medium_spring_green cyan2 cyan1 dark_red deep_pink4 purple4 purple3 blue_violet orange4 grey37
gray37 medium_purple4 slate_blue3 royal_blue1 chartreuse4 dark_sea_green4 pale_turquoise4
steel_blue steel_blue3 cornflower_blue chartreuse3 cadet_blue sky_blue3 steel_blue1 pale_green3
sea_green3 aquamarine3 medium_turquoise chartreuse2 sea_green2 sea_green1 aquamarine1
dark_slate_gray2 dark_magenta dark_violet purple light_pink4 plum4 medium_purple3 slate_blue1
yellow4 wheat4 grey53 gray53 light_slate_grey light_slate_gray medium_purple light_slate_blue
dark_olive_green3 dark_sea_green light_sky_blue3 sky_blue2 dark_sea_green3 dark_slate_gray3
sky_blue1 chartreuse1 light_green pale_green1 dark_slate_gray1 red3 medium_violet_red magenta3
dark_orange3 indian_red hot_pink3 medium_orchid3 medium_orchid medium_purple2 dark_goldenrod
light_salmon3 rosy_brown grey63 gray63 medium_purple1 gold3 dark_khaki navajo_white3 grey69
gray69 light_steel_blue3 light_steel_blue yellow3 dark_sea_green2 light_cyan3 light_sky_blue1
green_yellow dark_olive_green2 dark_sea_green1 pale_turquoise1 deep_pink3 magenta2 hot_pink2
orchid medium_orchid1 orange3 light_pink3 pink3 plum3 violet light_goldenrod3 tan misty_rose3
thistle3 plum2 khaki3 light_goldenrod2 light_yellow3 grey84 gray84 light_steel_blue1 yellow2
dark_olive_green1 honeydew2 light_cyan1 red1 deep_pink2 deep_pink1 magenta1 orange_red1
indian_red1 hot_pink dark_orange salmon1 light_coral pale_violet_red1 orchid2 orchid1 orange1
sandy_brown light_salmon1 light_pink1 pink1 plum1 gold1 navajo_white1 misty_rose1 thistle1
yellow1 light_goldenrod1 khaki1 wheat1 cornsilk1 grey100 gray100 grey3 gray3 grey7 gray7 grey11
gray11 grey15 gray15 grey19 gray19 grey23 gray23 grey27 gray27 grey30 gray30 grey35 gray35
grey39 gray39 grey42 gray42 grey46 gray46 grey50 gray50 grey54 gray54 grey58 gray58 grey62
gray62 grey66 gray66 grey70 gray70 grey74 gray74 grey78 gray78 grey82 gray82 grey85 gray85
grey89 gray89 grey93 gray93"

def namedColors : List (List Char) := Text.blankSeparated colorNames.toList

def marks : List (String × List String) :=
  [("bold", ["b"]), ("dim", ["d"]), ("italic", ["i"]), ("underline", ["u"]), ("blink", []),
    ("blink2", []), ("reverse", ["r"]), ("conceal", ["c"]), ("strike", ["s"]), ("underline2", ["uu"]),
    ("frame", []), ("encircle", []), ("overline", ["o"])]

def mark? (word : String) : Option String :=
  (marks.find? fun m => m.1 = word ∨ word ∈ m.2).map Prod.fst

private def within? (start stop : String) (word : List Char) : Option (List Char) :=
  let start := start.toList
  let stop := stop.toList
  if start.isPrefixOf word && stop.isSuffixOf (word.drop start.length) then
    some ((word.drop start.length).take (word.length - start.length - stop.length))
  else none

private def isHexDigit (c : Char) : Bool := c.isDigit || ('a' ≤ c && c ≤ 'f')

private def commaParts (cs : List Char) : List (List Char) :=
  cs.foldr (fun c parts =>
    if c = ',' then [] :: parts
    else (c :: parts.headD []) :: parts.tail) [[]]

def areShares (parts : List (List Char)) : Except Failure Bool :=
  if parts.length ≠ 3 then .ok false
  else if parts.any List.isEmpty then .error (.notInteger "")
  else .ok (parts.all fun cs => Text.digitsValue cs ≤ 255)

/-- Whether a word in lowercase is a colour: by its name, by the number of its place in a palette, or by
its shares of red, green and blue. -/
def isColor (word : List Char) : Except Failure Bool :=
  if word = "default".toList ∨ namedColors.contains word then .ok true
  else
    match within? "#" "" word, within? "color(" ")" word, within? "rgb(" ")" word with
    | some cs, _, _ => .ok (cs.length = 6 && cs.all isHexDigit)
    | _, some cs, _ =>
      .ok (!cs.isEmpty && cs.length ≤ 3 && cs.all Char.isDigit && Text.digitsValue cs ≤ 255)
    | _, _, some cs =>
      if cs.isEmpty ∨ ¬ cs.all fun c => c = ',' || Text.isDigit c then .ok false
      else areShares (commaParts cs)
    | _, _, _ => .ok false

structure Style where
  /-- Marks that are on or off, the last one that was set in front. -/
  marks : List (String × Bool)
  color : Option String
  background : Option String
  link : Option String

namespace Style

def plain : Style := ⟨[], none, none, none⟩

def read : Style → List String → Except Failure (Option Style)
  | s, [] => .ok (some s)
  | s, word :: rest => do
    let name := Text.lower word
    if name = "on" ∨ name = "not" ∨ name = "link" then
      match rest with
      | [] => .ok none
      | word :: rest =>
        if name = "on" then
          let color := Text.lower word
          if ← isColor color.toList then read { s with background := some color } rest
          else .ok none
        else if name = "not" then
          match mark? word with
          | some m => read { s with marks := (m, false) :: s.marks } rest
          | none => .ok none
        else read { s with link := some word } rest
    else
      match mark? name with
      | some m => read { s with marks := (m, true) :: s.marks } rest
      | none =>
        if ← isColor name.toList then read { s with color := some name } rest else .ok none

def words (s : Style) : List String :=
  let marks := Console.marks.filterMap fun m =>
    (s.marks.lookup m.1).map fun on => if on then m.1 else "not " ++ m.1
  marks ++ s.color.toList ++ (s.background.map ("on " ++ ·)).toList ++
    (s.link.map ("link " ++ ·)).toList

def text (s : Style) : String :=
  if s.words.isEmpty then "none" else " ".intercalate s.words

/-- The canonical form of the style that a tag names. A name of no style stands for itself, in lowercase
and without blanks around it. -/
def canonical (name : List Char) : Except Failure String := do
  let trimmed := String.ofList (Text.trim name)
  if trimmed = "none" then .ok trimmed
  else
    match ← read plain ((Text.blankSeparated name).map String.ofList) with
    | some s => .ok s.text
    | none => .ok (Text.lower trimmed)

end Style

end PlainSheets.Console
