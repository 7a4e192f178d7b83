import ProseLint.Markup

/-!
# Markdown events

A Markdown text is read as a flat sequence of events: a tag starts, the innermost open tag ends, or
a leaf stands between them. Each event has the byte offset at which it starts. Folding the events
gives a markup tree. A tag without a place in the document model becomes a leaf that names its kind,
and an autolink becomes a leaf too; what stands inside such a tag is dropped.
-/
namespace ProseLint.Markdown

open Markup (Container Leaf Node OmittedKind SpecialText)

/-- How the target of a link is written. -/
inductive LinkKind where
  | labelled
  | autolink
  deriving DecidableEq, Repr

inductive Tag where
  | paragraph
  | heading (level : Nat)
  | quote
  | codeBlock
  | htmlBlock
  | list (ordered : Bool)
  | item
  | footnote
  | definitionList
  | table
  | emphasis
  | strong
  | strikethrough
  | link (kind : LinkKind) (url : Text)
  | image (url : Text)
  | metadata
  deriving DecidableEq, Repr

inductive Event where
  | start (tag : Tag)
  | finish
  | text (t : Text)
  | code (t : Text)
  | softBreak
  | hardBreak
  | html
  | math
  | footnoteReference
  | rule
  | taskMarker
  deriving DecidableEq, Repr

/-- An event with the offset at which it starts. -/
structure EventAt where
  offset : Nat
  event : Event
  deriving DecidableEq, Repr

/-- What a tag becomes: a container of its contents, or a leaf in their place. -/
inductive Shape where
  | container (kind : Container)
  | leaf (l : Leaf)
  deriving DecidableEq, Repr

def shape (offset : Nat) : Tag → Shape
  | .paragraph => .container .paragraph
  | .heading level => .container (.header level)
  | .quote => .container .quote
  | .codeBlock => .leaf (.omitted .codeBlock)
  | .htmlBlock => .leaf (.omitted .rawMarkup)
  | .list true => .container .orderedList
  | .list false => .container .bulletList
  | .item => .container .listItem
  | .footnote => .leaf (.omitted .footnote)
  | .definitionList => .leaf (.omitted .definitionList)
  | .table => .leaf (.omitted .table)
  | .emphasis => .container .emphasis
  | .strong => .container .emphasis
  | .strikethrough => .container .emphasis
  | .link .labelled url => .container (.link url)
  | .link .autolink url => .leaf (.autolink offset url)
  | .image _ => .leaf (.omitted .image)
  | .metadata => .leaf (.omitted .metadata)

/-- The leaf of an event that neither starts nor ends a tag, if it has one. Text that is one
typographic glyph is special. -/
def leaf? (offset : Nat) : Event → Option Leaf
  | .text t =>
    match SpecialText.ofGlyph? t with
    | some kind => some (.special offset kind)
    | none => some (.text offset t)
  | .code t => some (.code offset t)
  | .softBreak => some (.text offset [' '])
  | .hardBreak => some (.text offset [' '])
  | .html => some (.omitted .rawMarkup)
  | .math => some (.omitted .rawMarkup)
  | .footnoteReference => some (.omitted .footnoteReference)
  | .rule => some (.omitted .rule)
  | .taskMarker => none
  | .start _ => none
  | .finish => none

/-- An open tag and the nodes inside it so far. -/
structure Frame where
  shape : Shape
  children : List Node := []

namespace Frame

def push (n : Node) (f : Frame) : Frame := { f with children := f.children ++ [n] }

/-- The node of a tag whose contents are complete. -/
def toNode (f : Frame) : Node :=
  match f.shape with
  | .container kind => .container kind f.children
  | .leaf l => .leaf l

end Frame

/-- The open tags, of which the outermost is the root of the tree. -/
structure Frames where
  top : Frame
  below : List Frame := []

namespace Frames

def root : Frames := ⟨⟨.container .root, []⟩, []⟩

/-- Take in one event. An end without an open tag is an error at its offset. -/
def step (s : Frames) (e : EventAt) : Except Nat Frames :=
  match e.event with
  | .start tag => .ok ⟨⟨shape e.offset tag, []⟩, s.top :: s.below⟩
  | .finish =>
    match s.below with
    | [] => .error e.offset
    | outer :: rest => .ok ⟨outer.push s.top.toNode, rest⟩
  | event =>
    match leaf? e.offset event with
    | some l => .ok { s with top := s.top.push (.leaf l) }
    | none => .ok s

/-- Take in events one after another. -/
def steps (s : Frames) : List EventAt → Except Nat Frames
  | [] => .ok s
  | e :: es =>
    match s.step e with
    | .ok s' => s'.steps es
    | .error offset => .error offset

/-- Close every tag that is still open. -/
def closeAll (top : Frame) : List Frame → Node
  | [] => top.toNode
  | outer :: rest => closeAll (outer.push top.toNode) rest

end Frames

/-- The tree of a sequence of events, or the offset of an end that ends nothing. -/
def treeOfEvents (es : List EventAt) : Except Nat Node :=
  match Frames.root.steps es with
  | .ok s => .ok (Frames.closeAll s.top s.below)
  | .error offset => .error offset

end ProseLint.Markdown
