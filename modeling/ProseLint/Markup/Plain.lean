import ProseLint.Markup
import ProseLint.Markup.SourceLine

/-!
# Plain text

Paragraphs are runs of lines with text on them, parted by blank lines. There is no other structure.
-/
namespace ProseLint.Markup.Plain

/-- A paragraph, unless there is nothing in it. -/
def closeParagraph (children : List Node) : List Node :=
  if children.isEmpty then [] else [.container .paragraph children]

/-- A paragraph continued by a line; a space joins the line to the one before. -/
def addLine (children : List Node) (l : SourceLine) : List Node :=
  if children.isEmpty then [.text l.offset l.text]
  else children ++ [.text l.joinerOffset [' '], .text l.offset l.text]

/-- The paragraphs of the lines, where `children` is the paragraph under way. -/
def paragraphsFrom (children : List Node) : List SourceLine → List Node
  | [] => closeParagraph children
  | l :: ls =>
    if Text.allBlank l.text then closeParagraph children ++ paragraphsFrom [] ls
    else paragraphsFrom (addLine children l) ls

/-- The markup tree of a plain text. -/
def read (source : Text) : Node := .container .root (paragraphsFrom [] (SourceLine.all source))

end ProseLint.Markup.Plain
