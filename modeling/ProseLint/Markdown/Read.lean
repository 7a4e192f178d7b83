import ProseLint.Markdown.Inline
import ProseLint.Markdown.Outline

/-!
# Reading Markdown

The events of a text are those of its outline, with the inline text of each block resolved once all
definitions are known. The markup tree is the fold of the events.
-/
namespace ProseLint.Markdown

open Markup (Node)

mutual

/-- The events of an inline element. A run or quote that is left over gives none. -/
def inlineEvents : Inline → List EventAt
  | .event offset e => [⟨offset, e⟩]
  | .run _ _ _ _ _ => []
  | .quote _ _ _ _ => []
  | .container offset tag children =>
    ⟨offset, .start tag⟩ :: inlineEventsAll children ++ [⟨offset, .finish⟩]

def inlineEventsAll : List Inline → List EventAt
  | [] => []
  | i :: is => inlineEvents i ++ inlineEventsAll is

end

/-- The events of the inline text of a block. -/
def contentEvents (opts : Options) (labels : LabelTable) (p : PlacedText) : List EventAt :=
  inlineEventsAll (inlines opts labels p)

/-- The offset at which a placed text starts. -/
def startOf (p : PlacedText) : Nat := PlacedText.startOr 0 p

/-- The empty text at the end of a heading, unless text stands before it. -/
def tailEvents (es : List EventAt) (tail : Option Nat) : List EventAt :=
  match tail, es.getLast? with
  | none, _ => []
  | some _, some ⟨_, .text _⟩ => []
  | some offset, _ => [⟨offset, .text []⟩]

mutual

/-- The events of a block. -/
def blockEvents (opts : Options) (labels : LabelTable) : Block → List EventAt
  | .paragraph content =>
    ⟨startOf content, .start .paragraph⟩ :: contentEvents opts labels content ++
      [⟨startOf content, .finish⟩]
  | .plain content => contentEvents opts labels content
  | .term content =>
    ⟨startOf content, .start .paragraph⟩ :: contentEvents opts labels content ++
      [⟨startOf content, .finish⟩]
  | .heading level content tail =>
    let es := contentEvents opts labels content
    ⟨startOf content, .start (.heading level)⟩ :: es ++ tailEvents es tail ++
      [⟨startOf content, .finish⟩]
  | .rule offset => [⟨offset, .rule⟩]
  | .task offset => [⟨offset, .taskMarker⟩]
  | .omitted tag offset => [⟨offset, .start tag⟩, ⟨offset, .finish⟩]
  | .quote children =>
    ⟨0, .start .quote⟩ :: blockEventsAll opts labels children ++ [⟨0, .finish⟩]
  | .list ordered items =>
    ⟨0, .start (.list ordered)⟩ :: blockEventsAll opts labels items ++ [⟨0, .finish⟩]
  | .item children =>
    ⟨0, .start .item⟩ :: blockEventsAll opts labels children ++ [⟨0, .finish⟩]

def blockEventsAll (opts : Options) (labels : LabelTable) : List Block → List EventAt
  | [] => []
  | b :: bs => blockEvents opts labels b ++ blockEventsAll opts labels bs

end

/-- The events of a Markdown text. -/
def events (opts : Options) (t : Text) : List EventAt :=
  let o := outline opts t
  blockEventsAll opts ⟨o.definitions, o.footnotes⟩ o.blocks

/-- The markup tree of a Markdown text. -/
def read (opts : Options) (t : Text) : Except Nat Node := treeOfEvents (events opts t)

end ProseLint.Markdown
