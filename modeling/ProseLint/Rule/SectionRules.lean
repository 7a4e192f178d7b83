import ProseLint.Rule.SentenceRules

/-!
# Rules on sections and documents

The length of a section in characters and in paragraphs, how a paragraph begins, and the number of
sections of a document.
-/
namespace ProseLint.Rule

/-- The line of the first sentence of a section, or 0 without one. -/
def sectionLine (s : Section) : Nat :=
  match s.sentences.head? with
  | some first => first.line
  | none => 0

namespace SectionLength

def name : Text := "SectionLength".toList

def defaultMax : Nat := 1000

/-- The characters of the body; the header is not counted. -/
def bodyLength (s : Section) : Nat := total (s.bodySentences.map (·.content.length))

def check (max : Nat) (s : Section) : List Finding :=
  if bodyLength s ≤ max then []
  else
    let what := "The number of characters in the section".toList
    [.onLine name (exceeds what (bodyLength s) max) (sectionLine s)]

def validator (max : Nat) : Validator := ⟨name, .onSection fun s _ => .ok (check max s)⟩

end SectionLength

namespace ParagraphNumber

def name : Text := "ParagraphNumber".toList

def defaultMax : Nat := 6

def check (max : Nat) (s : Section) : List Finding :=
  let count := s.paragraphs.length
  if count ≤ max then []
  else [.onLine name (exceeds "The number of paragraphs".toList count max) (sectionLine s)]

def validator (max : Nat) : Validator := ⟨name, .onSection fun s _ => .ok (check max s)⟩

end ParagraphNumber

namespace ParagraphStartWith

def name : Text := "ParagraphStartWith".toList

def defaultStart : Text := [' ']

/-- The first sentence of a paragraph that opens in another way than wanted. -/
def offender? (start : Text) (p : Paragraph) : Option Sentence :=
  match p.opening with
  | some t => if start.isPrefixOf t then none else p.sentences.head?
  | none => none

/-- An empty start is the start of every paragraph. -/
def check (start : Text) (s : Section) : List Finding :=
  (s.paragraphs.filterMap (offender? start)).map fun first =>
    .onSentence name ("Paragraph does not start with \"".toList ++ start ++ "\".".toList) first

def validator (start : Text) : Validator := ⟨name, .onSection fun s _ => .ok (check start s)⟩

end ParagraphStartWith

namespace MaxSectionNumber

def name : Text := "MaxSectionNumber".toList

def defaultMax : Nat := 100

/-- The sections with a header; the preamble is not counted. -/
def headed (d : Document) : Nat := (d.orderedSections.filter fun s => !s.isPreamble).length

def check (max : Nat) (d : Document) : List Finding :=
  if headed d ≤ max then []
  else [.onLine name (exceeds "The number of sections".toList (headed d) max) 0]

def validator (max : Nat) : Validator := ⟨name, .onDocument fun d => .ok (check max d)⟩

end MaxSectionNumber

end ProseLint.Rule
