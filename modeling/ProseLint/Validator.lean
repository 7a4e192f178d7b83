import ProseLint.Document
import ProseLint.Finding

/-!
# Validators

A validator looks at one kind of unit: the whole document, each section or each sentence. A rule
may fail on a unit, by refusing it or by breaking down; then the validator gives no finding at all
for the document.
-/
namespace ProseLint

/-- How a rule fails on a unit. A breakdown need not leave a message. -/
inductive Failure where
  | refused (message : Text)
  | brokeDown (message : Option Text)
  deriving DecidableEq, Repr

/-- What a rule says of one unit. -/
abbrev Verdict := Except Failure (List Finding)

/-- The kind of unit that a rule looks at. -/
inductive Scope where
  | wholeDocument
  | eachSection
  | eachSentence
  deriving DecidableEq, Repr

namespace Scope

def name : Scope → Text
  | wholeDocument => "document".toList
  | eachSection => "section".toList
  | eachSentence => "sentence".toList

def capitalName : Scope → Text
  | wholeDocument => "Document".toList
  | eachSection => "Section".toList
  | eachSentence => "Sentence".toList

end Scope

/-- A rule with the kind of unit it looks at. A section is given with the document around it. -/
inductive Rule where
  | onDocument (check : Document → Verdict)
  | onSection (check : Section → Document → Verdict)
  | onSentence (check : Sentence → Verdict)

structure Validator where
  name : Text
  rule : Rule

namespace Validator

def scope (v : Validator) : Scope :=
  match v.rule with
  | .onDocument _ => .wholeDocument
  | .onSection _ => .eachSection
  | .onSentence _ => .eachSentence

/-- The findings of all units, or the first failure. -/
def collect {α : Type} (check : α → Verdict) : List α → Verdict
  | [] => .ok []
  | x :: xs =>
    match check x with
    | .error e => .error e
    | .ok found =>
      match collect check xs with
      | .error e => .error e
      | .ok rest => .ok (found ++ rest)

/-- Run the rule over every unit of a document in reading order. -/
def check (v : Validator) (d : Document) : Verdict :=
  match v.rule with
  | .onDocument rule => rule d
  | .onSection rule => collect (fun s => rule s d) d.orderedSections
  | .onSentence rule => collect rule d.sentences

/-- The validator as its fields show it, names in quotes. -/
def describe (quotedName : Text) (v : Validator) : Text :=
  "Validator \x7b name: ".toList ++ quotedName ++ ", scope: ".toList ++ v.scope.capitalName ++
    " \x7d".toList

end Validator

end ProseLint
