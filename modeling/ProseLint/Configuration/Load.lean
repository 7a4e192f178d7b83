import ProseLint.Configuration
import ProseLint.Diagnostic
import ProseLint.File
import ProseLint.Xml.Element

/-!
# Configurations from XML

The configuration is a `component` element, either the document element or its first child of that
name. Components become nodes, and properties the attributes of the node around them. What cannot be
used is passed over with a remark in the log; without a usable component there is no configuration.
-/
namespace ProseLint.Configuration

open Xml (Element)

def componentTag : Text := "component".toList

def propertyTag : Text := "property".toList

def tag (name : Text) : Text := ['<'] ++ name ++ ['>']

/-- The nodes so far and the remarks on elements that were passed over. -/
structure Loading where
  configuration : Configuration
  log : List LogLine := []

namespace Loading

def skip (what : Text) (row : Nat) (s : Loading) : Loading :=
  { s with log := s.log ++
    [.warn ("Skipping ".toList ++ what ++ " at line ".toList ++ Text.ofNat row)] }

mutual

/-- Take one child element into the node `parent`. -/
def addElement (parent : Nat) (s : Loading) : Element → Loading
  | .mk name attributes children row =>
    if name = componentTag then
      match attributes.lookup "name".toList with
      | some nodeName =>
        let added := { s with configuration := s.configuration.addChild parent nodeName }
        addAll s.configuration.size added children
      | none => s.skip (tag componentTag ++ " without a name".toList) row
    else if name = propertyTag then
      match attributes.lookup "name".toList, attributes.lookup "value".toList with
      | some key, some value =>
        { s with configuration := s.configuration.setAttribute parent key value }
      | _, _ => s.skip (tag propertyTag ++ " without name and value".toList) row
    else s.skip ("unknown element ".toList ++ tag name) row

/-- Take child elements into the node `parent`, in document order. -/
def addAll (parent : Nat) (s : Loading) : List Element → Loading
  | [] => s
  | e :: es => addAll parent (addElement parent s e) es

end

end Loading

/-- The element of the configuration, with a remark when there are several to choose from. -/
def component? (document : Element) : Option Element × List LogLine :=
  if document.name = componentTag then (some document, [])
  else
    let found := document.children.filter fun e => e.name == componentTag
    (found.head?,
      if found.length ≤ 1 then []
      else [.warn ("Configuration has ".toList ++ Text.ofNat found.length ++
        " top-level components; using the first".toList)])

/-- The configuration of a document element. -/
def ofElement (document : Element) : Option Configuration × List LogLine :=
  match component? document with
  | (none, log) =>
    (none, log ++ [.error ("Configuration has no ".toList ++ tag componentTag ++
      " element".toList)])
  | (some component, log) =>
    match component.attribute? "name".toList with
    | none =>
      (none, log ++ [.error ("Root ".toList ++ tag componentTag ++
        " has no name attribute".toList)])
    | some name =>
      let s := Loading.addAll 0 ⟨ofRoot name, log⟩ component.children
      (some s.configuration, s.log ++ [.debug ("Loaded configuration '".toList ++ name ++
        "' with ".toList ++ Text.ofNat s.configuration.validators.length ++
        " validators".toList)])

/-- The configuration of an XML text. -/
def load (source : Text) : Option Configuration × List LogLine :=
  match Xml.parse? source with
  | none => (none, [.error "Failed to parse configuration".toList])
  | some document => ofElement document

/-- The configuration of a file. -/
def loadFile (path : Text) (contents : File.Contents) : Option Configuration × List LogLine :=
  match File.text contents with
  | .ok source => load source
  | .error reason =>
    (none, [.error ("Failed to read configuration ".toList ++ path ++ ": ".toList ++ reason)])

end ProseLint.Configuration
