import ProseLint.Text

/-!
# Character table

The table names the symbols of a document's language, the variants that must not stand in their
place, and whether a symbol needs a blank before or behind it.
-/
namespace ProseLint

structure CharacterEntry where
  name : Text
  value : Text
  invalid : List Char := []
  beforeSpace : Bool := false
  afterSpace : Bool := false
  deriving DecidableEq, Repr

/-- Entries in declaration order, at most one of each name. -/
structure CharacterTable where
  entries : List CharacterEntry := []
  deriving DecidableEq, Repr

namespace CharacterTable

/-- Replace the entry of the same name in its place, or add the entry at the end. -/
def insertInto (e : CharacterEntry) : List CharacterEntry → List CharacterEntry
  | [] => [e]
  | x :: rest => if x.name = e.name then e :: rest else x :: insertInto e rest

def insert (e : CharacterEntry) (t : CharacterTable) : CharacterTable :=
  ⟨insertInto e t.entries⟩

def get? (name : Text) (t : CharacterTable) : Option CharacterEntry :=
  t.entries.find? fun e => e.name == name

def names (t : CharacterTable) : List Text := t.entries.map (·.name)

def size (t : CharacterTable) : Nat := t.entries.length

end CharacterTable

end ProseLint
