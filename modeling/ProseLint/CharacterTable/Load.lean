import ProseLint.CharacterTable
import ProseLint.Diagnostic
import ProseLint.File
import ProseLint.Xml.Element

/-!
# Character tables from XML

The document element is a `character-table`, and its `character` children are the entries. What
cannot be used is passed over with a remark in the log.
-/
namespace ProseLint.CharacterTable

open Xml (Element)

def rootTag : Text := "character-table".toList

def entryTag : Text := "character".toList

/-- An attribute that says yes. -/
def flag (value : Option Text) : Bool :=
  match value with
  | none => false
  | some t =>
    let word := Text.trim t
    word == "true".toList || word == "yes".toList || word == "1".toList

/-- The entry of an element, which must name a symbol and give its value. -/
def entry? (e : Element) : Option CharacterEntry :=
  match e.attribute? "name".toList, e.attribute? "value".toList with
  | some name, some value =>
    some
      { name := name
        value := value
        invalid := (e.attribute? "invalid-chars".toList).getD []
        beforeSpace := flag (e.attribute? "before-space".toList)
        afterSpace := flag (e.attribute? "after-space".toList) }
  | _, _ => none

/-- Take one child element into the table. -/
def addElement (s : CharacterTable × List LogLine) (e : Element) : CharacterTable × List LogLine :=
  if e.name = entryTag then
    match entry? e with
    | some entry => (s.1.insert entry, s.2)
    | none => (s.1, s.2 ++ [.warn "Skipping <character> without name and value".toList])
  else
    (s.1, s.2 ++ [.warn ("Skipping unknown element <".toList ++ e.name ++
      "> in character table".toList)])

/-- The table of a document element. -/
def ofElement (document : Element) : Option CharacterTable × List LogLine :=
  if document.name = rootTag then
    let (table, log) := document.children.foldl addElement ({}, [])
    (some table, log ++ [.debug ("Loaded character table with ".toList ++
      Text.ofNat table.size ++ " entries".toList)])
  else
    (none, [.error ("Expected <character-table> root element, found <".toList ++ document.name ++
      ['>'])])

/-- The table of an XML text. -/
def load (source : Text) : Option CharacterTable × List LogLine :=
  match Xml.parse? source with
  | none => (none, [.error "Failed to parse character table".toList])
  | some document => ofElement document

/-- The table of a file. -/
def loadFile (path : Text) (contents : File.Contents) : Option CharacterTable × List LogLine :=
  match File.text contents with
  | .ok source => load source
  | .error reason =>
    (none, [.error ("Failed to read character table ".toList ++ path ++ ": ".toList ++ reason)])

end ProseLint.CharacterTable
