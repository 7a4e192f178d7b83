import ProseLint.Sentence

/-!
# Documents

A document is a forest of sections. Sections are numbered in the order of their creation, and the
forest is kept as numbers: the roots, and for each section its parent and its children. The body of
a section is a sequence of blocks, each a paragraph or a list. Reading order is the pre-order walk
of the forest.
-/
namespace ProseLint

/-- The sum of numbers. -/
def total (ns : List Nat) : Nat := ns.foldr (· + ·) 0

@[simp] theorem total_nil : total [] = 0 := rfl

@[simp] theorem total_cons (n : Nat) (ns : List Nat) : total (n :: ns) = n + total ns := rfl

@[simp] theorem total_append (ms ns : List Nat) : total (ms ++ ns) = total ms + total ns := by
  induction ms with
  | nil => simp
  | cons m ms ih => simp [ih, Nat.add_assoc]

/-- Sentences of one paragraph, and the blanks in front of the first of them in the source. -/
structure Paragraph where
  indent : Text := []
  sentences : List Sentence := []
  deriving DecidableEq, Repr

/-- One list element; `level` is its nesting depth, 1 for the outermost. -/
structure ListElement where
  level : Nat
  sentences : List Sentence
  deriving DecidableEq, Repr

inductive Block where
  | paragraph (p : Paragraph)
  | list (elements : List ListElement)
  deriving DecidableEq, Repr

structure Section where
  level : Nat
  header : List Sentence
  blocks : List Block := []
  parent : Option Nat := none
  children : List Nat := []
  deriving DecidableEq, Repr

structure Document where
  name : Text
  sections : List Section := []
  roots : List Nat := []
  deriving DecidableEq, Repr

namespace Paragraph

/-- The paragraph as it opens in the source, its indent included. -/
def opening (p : Paragraph) : Option Text :=
  p.sentences.head?.map fun s => p.indent ++ s.content

end Paragraph

namespace Block

def sentences : Block → List Sentence
  | paragraph p => p.sentences
  | list elements => elements.flatMap (·.sentences)

def paragraph? : Block → Option Paragraph
  | paragraph p => some p
  | list _ => none

def elements? : Block → Option (List ListElement)
  | paragraph _ => none
  | list elements => some elements

end Block

namespace Section

/-- The section of level 0 without header that holds the text before the first header. -/
def isPreamble (s : Section) : Bool := s.level == 0 && s.header.isEmpty

/-- The header sentences joined by single spaces. -/
def headerText (s : Section) : Text := Text.joinWith [' '] (s.header.map (·.content))

def paragraphs (s : Section) : List Paragraph := s.blocks.filterMap Block.paragraph?

def lists (s : Section) : List (List ListElement) := s.blocks.filterMap Block.elements?

/-- The sentences of the blocks in source order. -/
def bodySentences (s : Section) : List Sentence := s.blocks.flatMap Block.sentences

/-- The header, then the body. -/
def sentences (s : Section) : List Sentence := s.header ++ s.bodySentences

end Section

namespace Document

def isEmpty (d : Document) : Bool := d.sections.isEmpty

def childrenOf (d : Document) (i : Nat) : List Nat :=
  match d.sections[i]? with
  | some s => s.children
  | none => []

/-- The number of visits a walk pays to a section and to all below it, down to a given depth. -/
def visits (d : Document) : Nat → Nat → Nat
  | 0, _ => 0
  | depth + 1, i => 1 + total ((d.childrenOf i).map (d.visits depth))

/-- The walk from a stack of sections: the first is visited and its children go before the rest.
The first argument bounds the number of visits. -/
def walkFrom (d : Document) : Nat → List Nat → List Nat
  | 0, _ => []
  | _ + 1, [] => []
  | n + 1, i :: rest => i :: d.walkFrom n (d.childrenOf i ++ rest)

/-- The visits that a walk of the whole forest pays: no path is longer than the number of
sections. -/
def walkLength (d : Document) : Nat := total (d.roots.map (d.visits d.sections.length))

/-- The section numbers in reading order: parents before children, siblings from left to right. -/
def walk (d : Document) : List Nat := d.walkFrom d.walkLength d.roots

/-- The sections in reading order. -/
def orderedSections (d : Document) : List Section := d.walk.filterMap fun i => d.sections[i]?

/-- Every sentence in reading order. -/
def sentences (d : Document) : List Sentence := d.orderedSections.flatMap Section.sentences

end Document

end ProseLint
