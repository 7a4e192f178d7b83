import ProseLint.Text

/-!
# Source lines

A source line is what stands before the line break, with the byte offset at which it starts.
-/
namespace ProseLint.Markup

structure SourceLine where
  offset : Nat
  text : Text
  deriving DecidableEq, Repr

namespace SourceLine

/-- Lines of which the first starts at `offset`, their breaks taken off. -/
def place (offset : Nat) : List Text → List SourceLine
  | [] => []
  | l :: ls => ⟨offset, Text.chomp l⟩ :: place (offset + Text.byteLength l) ls

/-- The lines of a source. -/
def all (source : Text) : List SourceLine := place 0 (Text.lines source)

/-- A space in place of the line feed that ended the line before. -/
def joinerOffset (l : SourceLine) : Nat := l.offset - 1

end SourceLine

end ProseLint.Markup
