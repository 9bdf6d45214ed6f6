import SourcePreview.StyledText
import SourcePreview.Text.Lines

/-!
# Texts on a terminal

A styled text is printed plain or with escape sequences that set boldness, slant and colour.
Every styled stretch is closed before a line feed, so that a pager that cuts lines never carries a
style over, and the printed text ends with a line feed unless it is empty.
-/

namespace SourcePreview.Terminal

/-- The escape sequence of a display attribute. -/
def displayCode (code : String) : String :=
  "\x1b[" ++ code ++ "m"

/-- Boldness on. -/
def bold : String := displayCode "1"

/-- Slant on. -/
def italic : String := displayCode "3"

/-- Everything off. -/
def reset : String := displayCode "0"

/-- The colour of the letters. -/
def foreground (color : Color) : String :=
  displayCode
    ("38;2;" ++ toString color.red.toNat ++ ";" ++ toString color.green.toNat ++ ";" ++
      toString color.blue.toNat)

/-- A stretch without line feeds in a style, which is set before it and reset after it. -/
def styledStretch (style : Style) (text : String) : String :=
  (if style.bold then bold else "") ++ (if style.italic then italic else "") ++
    foreground style.color ++ text ++ reset

/-- The stretch read so far in a style, or nothing if it is empty; last character first. -/
def closeStretch (style : Style) (reversed : List Char) : String :=
  if reversed.isEmpty then "" else styledStretch style (String.ofList reversed.reverse)

/-- A text in a style with its line feeds left out of the style; `current` is the stretch being
read, last character first. -/
def styledFrom (style : Style) (current : List Char) : List Char → String
  | [] => closeStretch style current
  | character :: rest =>
    if character = '\n' then closeStretch style current ++ "\n" ++ styledFrom style [] rest
    else styledFrom style (character :: current) rest

/-- Whether a segment is shown in the style that the terminal has anyway. -/
def isUnstyled (styled : StyledText) (segment : Segment) : Bool :=
  let style := styled.styleFor segment.tokenClass
  segment.tokenClass == .plain && style.color == styled.palette.foreground && !style.bold &&
    !style.italic

/-- A segment with its escape sequences. -/
def segmentText (styled : StyledText) (segment : Segment) : String :=
  if isUnstyled styled segment then segment.text
  else styledFrom (styled.styleFor segment.tokenClass) [] segment.text.toList

/-- The line feed that is still missing after a text. -/
def missingLineFeed (text : String) : String :=
  if text.toList = [] ∨ text.toList.getLast? = some '\n' then "" else "\n"

/-- A styled text with escape sequences. -/
def ansi (styled : StyledText) : String :=
  String.join (styled.segments.map (segmentText styled)) ++ missingLineFeed styled.text

/-- A styled text without any styling. -/
def plain (styled : StyledText) : String :=
  styled.text ++ missingLineFeed styled.text

end SourcePreview.Terminal
