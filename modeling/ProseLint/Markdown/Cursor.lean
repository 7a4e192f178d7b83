import ProseLint.Text

/-!
# Lines and indentation

Blocks are recognised by how their lines begin. A cursor walks over the beginning of a line; a tab
counts as the blanks up to the next multiple of four columns, and part of a tab may be left over.
-/
namespace ProseLint.Markdown

/-- A line without its break, and whether a break follows. -/
structure Line where
  offset : Nat
  text : Text
  ended : Bool
  deriving DecidableEq, Repr

namespace Line

/-- Lines are ended by a line feed, by a carriage return, or by both. `current` holds the characters
of the line that starts at `offset`, the last one first. -/
def split (offset : Nat) (current : Text) : Text → List Line
  | [] => if current.isEmpty then [] else [⟨offset, current.reverse, false⟩]
  | '\r' :: '\n' :: t =>
    ⟨offset, current.reverse, true⟩ :: split (offset + Text.byteLength current + 2) [] t
  | c :: t =>
    if c = '\n' ∨ c = '\r' then
      ⟨offset, current.reverse, true⟩ :: split (offset + Text.byteLength current + 1) [] t
    else split offset (c :: current) t

/-- The lines of a text. -/
def all (t : Text) : List Line := split 0 [] t

/-- The offset behind the characters of the line. -/
def stop (l : Line) : Nat := l.offset + Text.byteLength l.text

end Line

/-- A place in a line. `sinceTab` counts the bytes since the last tab, and `owed` the columns of
that tab which are not used up. -/
structure Cursor where
  rest : Text
  offset : Nat
  sinceTab : Nat := 0
  owed : Nat := 0
  deriving Repr

/-- A blank within a line. -/
def isLineSpace (c : Char) : Bool := c == ' ' || c == '\t' || c == '\x0b' || c == '\x0c'

/-- Nothing but blanks. -/
def isBlankLine (t : Text) : Bool := t.all isLineSpace

namespace Cursor

def atStart (l : Line) : Cursor := { rest := l.text, offset := l.offset }

def atEnd (c : Cursor) : Bool := c.rest.isEmpty

/-- Pass over up to `n` columns of the blanks ahead; the first component counts those missing. -/
def passBlanks (n offset sinceTab : Nat) : Text → Nat × Cursor
  | ' ' :: t =>
    match n with
    | 0 => (0, ⟨' ' :: t, offset, sinceTab, 0⟩)
    | n + 1 => passBlanks n (offset + 1) (sinceTab + 1) t
  | '\t' :: t =>
    if n = 0 then (0, ⟨'\t' :: t, offset, sinceTab, 0⟩)
    else
      let width := 4 - sinceTab % 4
      if n < width then (0, ⟨t, offset + 1, 0, width - n⟩)
      else passBlanks (n - width) (offset + 1) 0 t
  | t => (n, ⟨t, offset, sinceTab, 0⟩)

/-- Pass over up to `n` columns; the first component counts those missing. -/
def columns (n : Nat) (c : Cursor) : Nat × Cursor :=
  if n ≤ c.owed then (0, { c with owed := c.owed - n })
  else passBlanks (n - c.owed) c.offset c.sinceTab c.rest

/-- The place behind `n` columns, if there are as many. -/
def columns? (n : Nat) (c : Cursor) : Option Cursor :=
  match c.columns n with
  | (0, c) => some c
  | _ => none

/-- The place behind all blanks and tabs. -/
def skipBlanks (c : Cursor) : Cursor :=
  let rest := c.rest.dropWhile fun d => d == ' ' || d == '\t'
  ⟨rest, c.offset + (c.rest.length - rest.length), 0, 0⟩

/-- The place behind `n` characters, each of one byte. -/
def skip (n : Nat) (c : Cursor) : Cursor :=
  ⟨c.rest.drop n, c.offset + n, c.sinceTab + n, 0⟩

end Cursor

end ProseLint.Markdown
