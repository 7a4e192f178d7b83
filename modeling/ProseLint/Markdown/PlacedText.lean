import ProseLint.Markdown.Cursor

/-!
# Placed text

The inline text of a block is put together from several lines, without the marks of the blocks
around it. Each character keeps its byte offset in the source; a line break is one line feed at the
offset where the line ends.
-/
namespace ProseLint.Markdown

abbrev PlacedText := List (Char × Nat)

namespace PlacedText

def text (p : PlacedText) : Text := p.map (·.1)

/-- Place a text whose first character stands at `offset`. -/
def ofText (offset : Nat) : Text → PlacedText
  | [] => []
  | c :: t => (c, offset) :: ofText (offset + c.utf8Size) t

/-- Texts of lines, each with the offset at which it starts, with line breaks between them. -/
def ofLines : List (Nat × Text) → PlacedText
  | [] => []
  | [l] => ofText l.1 l.2
  | l :: m :: rest =>
    ofText l.1 l.2 ++ ('\n', l.1 + Text.byteLength l.2) :: ofLines (m :: rest)

/-- The text without the blanks at its end. -/
def trimEnd (p : PlacedText) : PlacedText :=
  (p.reverse.dropWhile fun c => isLineSpace c.1 || c.1 == '\n').reverse

/-- The offset at which the text starts, or `stop` when it is empty. -/
def startOr (stop : Nat) (p : PlacedText) : Nat :=
  match p with
  | [] => stop
  | c :: _ => c.2

/-- The offset just past the first `n` characters, which start at `start` or behind it. -/
def stopAfter (start n : Nat) (p : PlacedText) : Nat :=
  match (p.take n).getLast? with
  | some c => c.2 + c.1.utf8Size
  | none => start

/-- The text before an offset. -/
def before (offset : Nat) (p : PlacedText) : PlacedText := p.takeWhile fun c => c.2 < offset

/-- The text from an offset on. -/
def fromOffset (offset : Nat) (p : PlacedText) : PlacedText := p.dropWhile fun c => c.2 < offset

end PlacedText

end ProseLint.Markdown
