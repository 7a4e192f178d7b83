import ProseLint.Markdown.EntityTable
import ProseLint.Xml.Reference

/-!
# Character references in Markdown

A reference is a name of the HTML standard or a number, between `&` and `;`. The number zero stands
for the replacement character; a number that is no character's makes no reference.
-/
namespace ProseLint.Markdown

open Xml (digitsValue isHexDigit)

/-- Read one table entry for a name. -/
def entryCharacters? (name entry : Text) : Option Text :=
  match Text.splitOn ':' entry with
  | [key, codes] =>
    if key = name then some ((Text.splitOn '+' codes).map fun d => Char.ofNat (digitsValue 16 d))
    else none
  | _ => none

/-- The characters of a name. -/
def namedCharacters? (name : Text) : Option Text :=
  entityRows.findSome? fun row => (Text.splitOn ' ' row.toList).findSome? (entryCharacters? name)

/-- The character of a number. -/
def numberedCharacter? (n : Nat) : Option Text :=
  if n = 0 then some ['\uFFFD'] else if n.isValidChar then some [Char.ofNat n] else none

/-- Digits up to a count and a semicolon: the number, and the characters read. -/
def numberEnd? (isDigit : Char → Bool) (limit base : Nat) (t : Text) : Option (Text × Nat) :=
  let digits := (t.takeWhile isDigit).take limit
  match t.drop digits.length with
  | ';' :: _ =>
    if digits.isEmpty then none
    else (numberedCharacter? (digitsValue base digits)).map fun cs => (cs, digits.length + 1)
  | _ => none

/-- The characters of the reference at the front of a text that begins with `&`, and its length. -/
def entity? (t : Text) : Option (Text × Nat) :=
  match t with
  | '&' :: '#' :: 'x' :: rest => (numberEnd? isHexDigit 6 16 rest).map fun r => (r.1, r.2 + 3)
  | '&' :: '#' :: 'X' :: rest => (numberEnd? isHexDigit 6 16 rest).map fun r => (r.1, r.2 + 3)
  | '&' :: '#' :: rest => (numberEnd? Char.isDigit 7 10 rest).map fun r => (r.1, r.2 + 2)
  | '&' :: rest =>
    let name := rest.takeWhile Char.isAlphanum
    match rest.drop name.length with
    | ';' :: _ => (namedCharacters? name).map fun cs => (cs, name.length + 2)
    | _ => none
  | _ => none

/-- A punctuation mark of ASCII. -/
def isAsciiPunctuation (c : Char) : Bool :=
  let n := c.toNat
  (0x21 ≤ n && n ≤ 0x2F) || (0x3A ≤ n && n ≤ 0x40) || (0x5B ≤ n && n ≤ 0x60) ||
    (0x7B ≤ n && n ≤ 0x7E)

/-- The text with its escapes and references resolved; `skip` characters are passed over first. -/
def unescapeFrom (skip : Nat) : Text → Text
  | [] => []
  | c :: t =>
    match skip with
    | n + 1 => unescapeFrom n t
    | 0 =>
      if c = '\\' && (t.head?.map isAsciiPunctuation).getD false then
        (t.head?.toList) ++ unescapeFrom 1 t
      else if c = '&' then
        match entity? (c :: t) with
        | some (cs, n) => cs ++ unescapeFrom (n - 1) t
        | none => c :: unescapeFrom 0 t
      else c :: unescapeFrom 0 t

def unescape (t : Text) : Text := unescapeFrom 0 t

end ProseLint.Markdown
