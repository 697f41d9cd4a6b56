/-!
# Styled text

Text for a terminal, which can be bold, dimmed or coloured. The style is switched on in front of the text
and everything is switched off behind it; where the text itself switches off, the style is switched on
again. Without colours the text stays as it is.
-/

namespace Declarative.Text

inductive Color where
  | red
  | green
  | yellow
  | blue
  | cyan
  deriving DecidableEq, Repr

def Color.number : Color → String
  | red => "31"
  | green => "32"
  | yellow => "33"
  | blue => "34"
  | cyan => "36"

structure Style where
  bold : Bool
  dimmed : Bool
  color : Option Color
  deriving DecidableEq, Repr

namespace Style

def boldText : Style := ⟨true, false, none⟩
def dimmedText : Style := ⟨false, true, none⟩
def ofColor (color : Color) : Style := ⟨false, false, some color⟩
def boldColor (color : Color) : Style := ⟨true, false, some color⟩

/-- The control sequence that switches the style on. -/
def sequence (style : Style) : List Char :=
  let numbers := (if style.bold then ["1"] else []) ++ (if style.dimmed then ["2"] else []) ++
    (style.color.map Color.number).toList
  ['\x1b', '['] ++ (";".intercalate numbers).toList ++ ['m']

/-- The control sequence that switches everything off. -/
def reset : List Char := ['\x1b', '[', '0', 'm']

/-- Switches on again after each place where the text switches off. -/
def reapply (on : List Char) : List Char → List Char
  | '\x1b' :: '[' :: '0' :: 'm' :: r => reset ++ on ++ reapply on r
  | c :: r => c :: reapply on r
  | [] => []

/-- The text in a style, if there are colours at all. -/
def paint (hasColor : Bool) (style : Style) (text : String) : String :=
  if hasColor then
    String.ofList (style.sequence ++ reapply style.sequence text.toList ++ reset)
  else
    text

end Style

/-- The text at the right end of a field. -/
def padLeft (width : Nat) (text : String) : String :=
  String.ofList (List.replicate (width - text.length) ' ' ++ text.toList)

def blanks (n : Nat) : String := String.ofList (List.replicate n ' ')

end Declarative.Text
