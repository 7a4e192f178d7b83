import ProseLint.Text

/-!
# Sentences

A sentence carries the line of its first character, the links inside it, and whether it opens the
paragraph or header that holds it. A span is a piece of inline text as markup cuts it.
-/
namespace ProseLint

structure Sentence where
  content : Text
  line : Nat
  isFirst : Bool := false
  links : List Text := []
  deriving DecidableEq, Repr, Inhabited

/-- Inline text that starts on one line, with the link that ends in it. -/
structure Span where
  line : Nat
  text : Text
  link : Option Text := none
  deriving DecidableEq, Repr

end ProseLint
