import ProseLint.Text

/-!
# Markup trees

Every input format is read into one kind of tree. Its leaves hold the inline text with the byte
offset at which it starts in the source; its containers give the structure. What the document
model has no place for is a leaf too, which only names its kind.
-/
namespace ProseLint.Markup

/-- Typographic punctuation that stands as a leaf of its own. -/
inductive SpecialText where
  | ellipsis
  | emDash
  | enDash
  | apostrophe
  deriving DecidableEq, Repr

namespace SpecialText

/-- The text that goes into the document; an apostrophe is written straight. -/
def glyph : SpecialText → Text
  | ellipsis => ['…']
  | emDash => ['—']
  | enDash => ['–']
  | apostrophe => ['\'']

/-- The special text that a glyph stands for; both curved single quotes are apostrophes. -/
def ofGlyph? (t : Text) : Option SpecialText :=
  if t = ['…'] then some ellipsis
  else if t = ['—'] then some emDash
  else if t = ['–'] then some enDash
  else if t = ['’'] ∨ t = ['‘'] then some apostrophe
  else none

end SpecialText

/-- Content that is left out of the document. -/
inductive OmittedKind where
  | table
  | definitionList
  | rawMarkup
  | image
  | codeBlock
  | footnote
  | footnoteReference
  | metadata
  | rule
  deriving DecidableEq, Repr

namespace OmittedKind

def name : OmittedKind → Text
  | table => "table".toList
  | definitionList => "definition list".toList
  | rawMarkup => "raw markup".toList
  | image => "image".toList
  | codeBlock => "code block".toList
  | footnote => "footnote".toList
  | footnoteReference => "footnote reference".toList
  | metadata => "metadata block".toList
  | rule => "horizontal rule".toList

end OmittedKind

inductive Leaf where
  | text (offset : Nat) (text : Text)
  | code (offset : Nat) (text : Text)
  /-- A bare address that is its own label. -/
  | autolink (offset : Nat) (url : Text)
  | special (offset : Nat) (kind : SpecialText)
  | omitted (kind : OmittedKind)
  deriving DecidableEq, Repr

namespace Leaf

/-- The text that a leaf adds to the document. -/
def content : Leaf → Text
  | text _ t => t
  | code _ t => t
  | autolink _ url => url
  | special _ kind => kind.glyph
  | omitted _ => []

end Leaf

inductive Container where
  | root
  | header (level : Nat)
  | paragraph
  | bulletList
  | orderedList
  | listItem
  | quote
  /-- Strong, emphasis or strikethrough. -/
  | emphasis
  | link (url : Text)
  deriving DecidableEq, Repr

/-- A markup tree. -/
inductive Node where
  | leaf (l : Leaf)
  | container (kind : Container) (children : List Node)
  deriving Repr

namespace Node

def text (offset : Nat) (t : Text) : Node := .leaf (.text offset t)

mutual

/-- The leaves of a tree from left to right. -/
def leaves : Node → List Leaf
  | .leaf l => [l]
  | .container _ children => leavesOfAll children

def leavesOfAll : List Node → List Leaf
  | [] => []
  | n :: ns => leaves n ++ leavesOfAll ns

end

end Node

end ProseLint.Markup
