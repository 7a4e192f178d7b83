import ProseLint.Markdown.Cursor

/-!
# How lines begin

Each kind of block is told by the beginning of a line: rules, headings, fences, list markers, table
heads and the fences of metadata.
-/
namespace ProseLint.Markdown.LineStart

/-- How many times `c` stands at the front of the text. -/
def runLength (c : Char) (t : Text) : Nat := (t.takeWhile (· == c)).length

/-- Three or more of one of `*`, `-` and `_`, and nothing else but blanks. -/
def isRule (t : Text) : Bool :=
  match t.filter fun c => !(c == ' ' || c == '\t') with
  | [] => false
  | c :: rest =>
    (c == '*' || c == '-' || c == '_') && t.head? == some c && rest.all (· == c) &&
      2 ≤ rest.length

/-- The level of a heading that begins with one to six number signs. -/
def headingLevel? (t : Text) : Option Nat :=
  let n := runLength '#' t
  if 1 ≤ n ∧ n ≤ 6 then
    match t.drop n with
    | [] => some n
    | c :: _ => if isLineSpace c then some n else none
  else none

/-- The level of the heading that a line of `=` or `-` makes of the paragraph above it. -/
def underlineLevel? (t : Text) : Option Nat :=
  match t with
  | [] => none
  | c :: _ =>
    if (c = '=' ∨ c = '-') ∧ isBlankLine (t.dropWhile (· == c)) then
      some (if c = '=' then 1 else 2)
    else none

/-- A fence of three or more backticks or tildes: its character and length. No backtick may stand
behind one of backticks. -/
def fence? (t : Text) : Option (Char × Nat) :=
  match t with
  | [] => none
  | c :: _ =>
    let n := runLength c t
    if (c = '`' ∨ c = '~') ∧ 3 ≤ n ∧ !(c == '`' && (t.drop n).contains '`') then some (c, n)
    else none

/-- The fence that ends a block of code begun with one of `n` characters. -/
def closesFence (c : Char) (n : Nat) (t : Text) : Bool :=
  n ≤ runLength c t && isBlankLine (t.dropWhile (· == c))

/-- A list marker: its character, its number, and how far the text of the item is indented. -/
structure Marker where
  mark : Char
  number : Nat
  indent : Nat
  behind : Cursor

/-- The marker of `width` columns before `c`, which a blank or the end of the line must follow. -/
def finishMarker? (mark : Char) (number width : Nat) (c : Cursor) : Option Marker :=
  let behind := if c.atEnd then some c else c.columns? 1
  match behind with
  | none => none
  | some c =>
    if isBlankLine c.rest then some ⟨mark, number, width + 1, c⟩
    else
      match c.columns 4 with
      | (0, _) => some ⟨mark, number, width + 1, c⟩
      | (missing, c') => some ⟨mark, number, width + 1 + (4 - missing), c'⟩

/-- A bullet, or up to nine digits before a dot or a parenthesis. A rule is no bullet. -/
def listMarker? (indent : Nat) (c : Cursor) : Option Marker :=
  match c.rest with
  | [] => none
  | d :: _ =>
    if d = '-' ∨ d = '+' ∨ d = '*' then
      if isRule c.rest then none else finishMarker? d 0 (indent + 1) (c.skip 1)
    else
      let digits := c.rest.takeWhile Char.isDigit
      let n := digits.length
      match c.rest.drop n with
      | e :: _ =>
        if 1 ≤ n ∧ n ≤ 9 ∧ (e = '.' ∨ e = ')') then
          let number := digits.foldl (fun v x => 10 * v + (x.toNat - '0'.toNat)) 0
          finishMarker? e number (indent + n + 1) (c.skip (n + 1))
        else none
      | [] => none

/-- The colon before a definition. -/
def definitionMarker? (indent : Nat) (c : Cursor) : Option Marker :=
  match c.rest with
  | ':' :: _ => finishMarker? ':' 0 (indent + 1) (c.skip 1)
  | _ => none

/-- The box of a task, with a blank behind it; the place after the box. -/
def taskBox? (c : Cursor) : Option Cursor :=
  let c := (c.columns 3).2
  match c.rest with
  | '[' :: d :: ']' :: e :: _ =>
    if (isLineSpace d || d == 'x' || d == 'X') && isLineSpace e then some (c.skip 3) else none
  | _ => none

/-- The columns of the line below a table's header, so far: how many are complete, and what was
seen of the one under way and of the line. -/
structure HeadScan where
  columns : Nat := 0
  started : Bool := false
  hyphen : Bool := false
  pipe : Bool := false

/-- One more character of the line below a table's header. -/
def HeadScan.step? (s : HeadScan) (c : Char) : Option HeadScan :=
  if c = ' ' ∨ c = '\t' then some s
  else if c = ':' then some { s with started := true }
  else if c = '-' then some { s with started := true, hyphen := true }
  else if c = '|' then
    if s.hyphen then
      some { columns := s.columns + 1, started := false, hyphen := false, pipe := true }
    else none
  else none

/-- The number of columns of a table head: cells of hyphens, each with a colon at either end if it
likes, parted by bars. -/
def tableColumns? (c : Cursor) : Option Nat :=
  match c.columns 4 with
  | (0, _) => none
  | (_, c) =>
    let (first, body) : HeadScan × Text := match c.rest with
      | '|' :: t => ({ pipe := true }, t)
      | t => ({}, t)
    match body.foldlM HeadScan.step? first with
    | none => none
    | some s =>
      if !s.pipe || (s.started && !s.hyphen) then none
      else
        let n := s.columns + (if s.started then 1 else 0)
        if n = 0 then none else some n

/-- The places of the bars of a line that no backslash escapes. -/
def bars (previous : Char) : Text → List Text
  | [] => []
  | c :: t => if c = '|' ∧ previous ≠ '\\' then t :: bars c t else bars c t

/-- The number of cells of a table's header line, or nothing when it holds no bar. -/
def headerCells? (t : Text) : Option Nat :=
  let bs := bars '\n' t
  match bs.getLast? with
  | none => none
  | some behind =>
    let n := if (t.dropWhile isLineSpace).head? == some '|' then bs.length - 1 else bs.length
    some (if isBlankLine behind then n else n + 1)

/-- Exactly three of a character and blanks. -/
def isTriple (c : Char) (t : Text) : Bool :=
  runLength c t == 3 && isBlankLine (t.drop 3)

/-- The line that ends metadata. -/
def closesMetadata (l : Line) : Bool :=
  (runLength '-' l.text == 3 || runLength '.' l.text == 3) &&
    (l.text.drop 3).all (· == ' ')

/-- Whether metadata begins at a line of three hyphens: a line that ends it follows, and the line
next to it is neither that one nor blank. -/
def opensMetadata (t : Text) (behind : List Line) : Bool :=
  isTriple '-' t &&
    match behind with
    | [] => false
    | l :: ls => !closesMetadata l && !isBlankLine l.text && ls.any closesMetadata

end ProseLint.Markdown.LineStart
