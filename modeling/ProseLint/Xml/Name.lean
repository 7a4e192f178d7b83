import ProseLint.Text
import ProseLint.Unicode.Range

/-!
# XML characters and names

Which characters may stand in an XML document, which of them are white space, and what a name is. A
qualified name is a local name with an optional namespace label before a colon.
-/
namespace ProseLint.Xml

/-- A character that may occur in a document. -/
def isCharacter (c : Char) : Bool :=
  let n := c.toNat
  if n < 0x20 then n == 9 || n == 10 || n == 13 else n != 0xFFFE && n != 0xFFFF

def isSpace (c : Char) : Bool := c == ' ' || c == '\t' || c == '\n' || c == '\r'

def nameStartRanges : List Unicode.Range :=
  [(0x3A, 0x3A), (0x41, 0x5A), (0x5F, 0x5F), (0x61, 0x7A), (0xC0, 0xD6), (0xD8, 0xF6),
    (0xF8, 0x2FF), (0x370, 0x37D), (0x37F, 0x1FFF), (0x200C, 0x200D), (0x2070, 0x218F),
    (0x2C00, 0x2FEF), (0x3001, 0xD7FF), (0xF900, 0xFDCF), (0xFDF0, 0xFFFD), (0x10000, 0xEFFFF)]

/-- Characters of a name that cannot stand first. -/
def nameExtraRanges : List Unicode.Range :=
  [(0x2D, 0x2E), (0x30, 0x39), (0xB7, 0xB7), (0x300, 0x36F), (0x203F, 0x2040)]

def isNameStart (c : Char) : Bool := Unicode.within nameStartRanges c

def isNameCharacter (c : Char) : Bool := isNameStart c || Unicode.within nameExtraRanges c

structure QName where
  space : Text
  localName : Text
  deriving DecidableEq, Repr

namespace QName

/-- Whether the text, if there is any, starts as a name does. -/
def startsWell (t : Text) : Bool :=
  match t with
  | [] => true
  | c :: _ => isNameStart c

/-- Read a run of name characters as a qualified name. -/
def ofText? (t : Text) : Option QName :=
  let (space, localName) := match Text.splitOn ':' t with
    | [name] => ([], name)
    | [space, name] => (space, name)
    | _ => ([], [])
  if localName.isEmpty || !startsWell localName || !startsWell space then none
  else some ⟨space, localName⟩

end QName

/-- The text behind its leading white space. -/
def skipSpaces (t : Text) : Text := t.dropWhile isSpace

theorem length_skipSpaces_le (t : Text) : (skipSpaces t).length ≤ t.length :=
  (List.dropWhile_sublist isSpace).length_le

/-- A qualified name at the front of the text, and what follows it. -/
def qname? (t : Text) : Option (QName × Text) :=
  (QName.ofText? (t.takeWhile isNameCharacter)).map fun name => (name, t.dropWhile isNameCharacter)

theorem length_of_qname? {t r : Text} {n : QName} (h : qname? t = some (n, r)) :
    r.length ≤ t.length := by
  simp only [qname?, Option.map_eq_some_iff, Prod.mk.injEq] at h
  obtain ⟨_, _, _, rfl⟩ := h
  exact (List.dropWhile_sublist isNameCharacter).length_le

end ProseLint.Xml
