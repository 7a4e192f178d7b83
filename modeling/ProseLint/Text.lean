/-!
# Text

Prose is handled as a list of characters. Positions in a source are byte offsets in UTF-8, so
the length that matters for them is `byteLength`. Blank characters are those with the Unicode
`White_Space` property; trimming removes them from the ends of a text and nothing else.
-/
namespace ProseLint

/-- A text is its list of characters. -/
abbrev Text := List Char

/-- A character with the Unicode `White_Space` property. -/
def isBlank (c : Char) : Bool :=
  let n := c.toNat
  (9 ≤ n && n ≤ 13) || n == 0x20 || n == 0x85 || n == 0xA0 || n == 0x1680 ||
    (0x2000 ≤ n && n ≤ 0x200A) || n == 0x2028 || n == 0x2029 || n == 0x202F || n == 0x205F ||
    n == 0x3000

/-- A character of the seven-bit range. -/
def isAscii (c : Char) : Bool := c.toNat < 128

namespace Text

/-- The number of bytes of the text in UTF-8. -/
def byteLength : Text → Nat
  | [] => 0
  | c :: t => c.utf8Size + byteLength t

@[simp] theorem byteLength_nil : byteLength [] = 0 := rfl

@[simp] theorem byteLength_cons (c : Char) (t : Text) :
    byteLength (c :: t) = c.utf8Size + byteLength t := rfl

@[simp] theorem byteLength_append (s t : Text) :
    byteLength (s ++ t) = byteLength s + byteLength t := by
  induction s with
  | nil => simp
  | cons c s ih => simp [ih, Nat.add_assoc]

def trimStart (t : Text) : Text := t.dropWhile isBlank

def trimEnd (t : Text) : Text := (t.reverse.dropWhile isBlank).reverse

def trim (t : Text) : Text := trimEnd (trimStart t)

/-- Only blank characters, possibly none. -/
def allBlank (t : Text) : Bool := t.all isBlank

/-- Lower case for the letters `A` to `Z`; every other character is kept. -/
def asciiLower (t : Text) : Text := t.map Char.toLower

/-- A number in decimal digits. -/
def ofNat (n : Nat) : Text := Nat.toDigits 10 n

/-- The texts with `sep` between neighbours. -/
def joinWith (sep : Text) : List Text → Text
  | [] => []
  | [t] => t
  | t :: u :: rest => t ++ sep ++ joinWith sep (u :: rest)

/-- The pieces between the occurrences of the character `sep`, empty ones included. -/
def splitOn (sep : Char) : Text → List Text
  | [] => [[]]
  | c :: t =>
    if c = sep then [] :: splitOn sep t
    else match splitOn sep t with
      | [] => [[c]]
      | p :: ps => (c :: p) :: ps

/-- Whether `part` occurs in the text as a contiguous factor. -/
def hasFactor (part : Text) : Text → Bool
  | [] => part.isEmpty
  | c :: t => part.isPrefixOf (c :: t) || hasFactor part t

/-- What follows `start` when the text begins with it. -/
def dropStart? (start : Text) (t : Text) : Option Text :=
  if start.isPrefixOf t then some (t.drop start.length) else none

/-- The lines of a text, each with the line feed that ends it; the last line may lack one. -/
def lines : Text → List Text
  | [] => []
  | c :: t =>
    if c = '\n' then [c] :: lines t
    else match lines t with
      | [] => [[c]]
      | l :: ls => (c :: l) :: ls

@[simp] theorem flatten_lines (t : Text) : (lines t).flatten = t := by
  induction t with
  | nil => rfl
  | cons c t ih =>
    by_cases h : c = '\n'
    · simp [lines, h, ih]
    · simp only [lines, if_neg h]
      cases hl : lines t with
      | nil => simp [hl] at ih; simp [← ih]
      | cons l ls => simp [hl] at ih; simp [← ih]

/-- A line without the line feeds and carriage returns at its end. -/
def chomp (l : Text) : Text :=
  (l.reverse.dropWhile fun c => c == '\n' || c == '\r').reverse

end Text

end ProseLint
