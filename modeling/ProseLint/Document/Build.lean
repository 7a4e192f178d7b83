import ProseLint.Document

/-!
# Building documents

A document grows at its end: text, lists and indents go to the section that was added last. Text
that comes before any section opens the preamble, a root of level 0 without header.
-/
namespace ProseLint

namespace Section

/-- The blocks with the last one changed. -/
def modifyLastBlock (f : Block → Block) (s : Section) : Section :=
  { s with blocks := s.blocks.modify (s.blocks.length - 1) f }

def pushBlock (b : Block) (s : Section) : Section := { s with blocks := s.blocks ++ [b] }

/-- Put a sentence into the paragraph that ends the section, opening one when none does. -/
def addSentence (x : Sentence) (s : Section) : Section :=
  match s.blocks.getLast? with
  | some (.paragraph p) =>
    let p' := { p with sentences := p.sentences ++ [{ x with isFirst := p.sentences.isEmpty }] }
    s.modifyLastBlock fun _ => .paragraph p'
  | _ => s.pushBlock (.paragraph { sentences := [{ x with isFirst := true }] })

/-- Record the indent of the paragraph that ends the section, if one does. -/
def setIndent (indent : Text) (s : Section) : Section :=
  match s.blocks.getLast? with
  | some (.paragraph p) => s.modifyLastBlock fun _ => .paragraph { p with indent := indent }
  | _ => s

/-- Put an element into the list that ends the section, opening one when none does. -/
def addElement (e : ListElement) (s : Section) : Section :=
  match s.blocks.getLast? with
  | some (.list es) => s.modifyLastBlock fun _ => .list (es ++ [e])
  | _ => s.pushBlock (.list [e])

end Section

namespace Document

/-- A new section; the first sentence of its header is marked as such. It has no place in the
forest until it is made a root or a child. -/
def addSection (level : Nat) (header : List Sentence) (d : Document) : Document :=
  let header := header.modify 0 fun s => { s with isFirst := true }
  { d with sections := d.sections ++ [{ level := level, header := header }] }

def addRoot (i : Nat) (d : Document) : Document := { d with roots := d.roots ++ [i] }

def attachChild (parent child : Nat) (d : Document) : Document :=
  let linked := d.sections.modify parent fun s => { s with children := s.children ++ [child] }
  { d with sections := linked.modify child fun s => { s with parent := some parent } }

/-- The number of the section that was added last. -/
def lastSection? (d : Document) : Option Nat :=
  if d.sections.isEmpty then none else some (d.sections.length - 1)

def levelOf (d : Document) (i : Nat) : Nat :=
  match d.sections[i]? with
  | some s => s.level
  | none => 0

def parentOf (d : Document) (i : Nat) : Option Nat :=
  match d.sections[i]? with
  | some s => s.parent
  | none => none

def headerOf (d : Document) (i : Nat) : List Sentence :=
  match d.sections[i]? with
  | some s => s.header
  | none => []

/-- The document with a preamble when it has no section yet. -/
def withSection (d : Document) : Document :=
  if d.sections.isEmpty then (d.addSection 0 []).addRoot 0 else d

/-- Change the section that was added last. -/
def modifyCurrent (f : Section → Section) (d : Document) : Document :=
  let d := d.withSection
  { d with sections := d.sections.modify (d.sections.length - 1) f }

def addParagraph (d : Document) : Document := d.modifyCurrent (Section.pushBlock (.paragraph {}))

def addSentence (x : Sentence) (d : Document) : Document := d.modifyCurrent (Section.addSentence x)

def setIndent (indent : Text) (d : Document) : Document :=
  d.modifyCurrent (Section.setIndent indent)

def addList (d : Document) : Document := d.modifyCurrent (Section.pushBlock (.list []))

def addElement (level : Nat) (sentences : List Sentence) (d : Document) : Document :=
  d.modifyCurrent (Section.addElement ⟨level, sentences⟩)

end Document

end ProseLint
