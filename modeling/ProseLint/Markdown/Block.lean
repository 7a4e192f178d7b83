import ProseLint.Markdown.Event
import ProseLint.Markdown.PlacedText

/-!
# Blocks

The block structure of a Markdown text is a tree whose leaves hold inline text that is yet to be
read. Of blocks without a place in the document model only the kind is kept.
-/
namespace ProseLint.Markdown

inductive Block where
  | paragraph (content : PlacedText)
  /-- A paragraph of a tight list, whose text stands in the item itself. -/
  | plain (content : PlacedText)
  /-- A paragraph that may be the term of a definition to come. -/
  | term (content : PlacedText)
  /-- `tail` is the offset of an empty text that a heading's closing marks leave behind. -/
  | heading (level : Nat) (content : PlacedText) (tail : Option Nat)
  | rule (offset : Nat)
  | task (offset : Nat)
  | omitted (tag : Tag) (offset : Nat)
  | quote (children : List Block)
  | list (ordered : Bool) (items : List Block)
  | item (children : List Block)

namespace Block

/-- A block as it stands in an item of a tight list. -/
def tighten : Block → Block
  | paragraph content => plain content
  | b => b

/-- An item of a tight list. -/
def tightenItem : Block → Block
  | item children => item (children.map tighten)
  | b => b

end Block

/-- What a Markdown text holds: its blocks, the targets of its labels, the nearest definition last,
and the names of its footnotes. -/
structure Outline where
  blocks : List Block
  definitions : List (Text × Text)
  footnotes : List Text

end ProseLint.Markdown
