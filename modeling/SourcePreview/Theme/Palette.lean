import SourcePreview.Theme.Color
import SourcePreview.Token

/-!
# Palettes

A palette gives every token class a style and has two colours for the ground and for text without
a style of its own.
-/

namespace SourcePreview

/-- How the tokens of one class look. -/
structure Style where
  color : Color
  bold : Bool
  italic : Bool
deriving DecidableEq, Repr, Inhabited

/-- A style that is neither bold nor italic. -/
def Style.upright (color : Color) : Style :=
  ⟨color, false, false⟩

/-- The styles of all token classes and the colours of the ground and the text. -/
structure Palette where
  background : Color
  foreground : Color
  comment : Style
  string : Style
  number : Style
  keyword : Style
  type : Style
  builtin : Style
  tag : Style
  plain : Style
deriving DecidableEq, Repr, Inhabited

namespace Palette

/-- The style of a token class. -/
def style (palette : Palette) : TokenClass → Style
  | .comment => palette.comment
  | .string => palette.string
  | .number => palette.number
  | .keyword => palette.keyword
  | .type => palette.type
  | .builtin => palette.builtin
  | .tag => palette.tag
  | .plain => palette.plain

/-- A palette with one style for all token classes. -/
def uniform (background foreground : Color) : Palette :=
  let style := Style.upright foreground
  ⟨background, foreground, style, style, style, style, style, style, style, style⟩

/-- Light grey on a dark ground. -/
def standard : Palette :=
  uniform (.solid 0x1E 0x1E 0x1E) (.solid 0xD4 0xD4 0xD4)

end Palette

end SourcePreview
