import ProseLint.Xml.Token

/-!
# XML elements

The tokens of a well-formed document make one element tree. Of an element the tree keeps its local
name, the attributes without namespace, its child elements, and the row on which it starts. Every
namespace label must be declared, and no two attributes of an element may have the same expanded
name.
-/
namespace ProseLint.Xml

/-- An element; `row` counts from 1. -/
inductive Element where
  | mk (name : Text) (attributes : List (Text × Text)) (children : List Element) (row : Nat)

namespace Element

def name : Element → Text
  | mk name _ _ _ => name

def attributes : Element → List (Text × Text)
  | mk _ attributes _ _ => attributes

def children : Element → List Element
  | mk _ _ children _ => children

def row : Element → Nat
  | mk _ _ _ row => row

def attribute? (key : Text) (e : Element) : Option Text := e.attributes.lookup key

end Element

def xmlSpace : Text := "http://www.w3.org/XML/1998/namespace".toList

def declarationSpace : Text := "http://www.w3.org/2000/xmlns/".toList

/-- Namespace labels with what they stand for; the nearest declaration comes first. -/
abbrev Spaces := List (Text × Text)

/-- The namespace declarations among the attributes of a tag. -/
def declaration? (a : QName × Text) : Option (Text × Text) :=
  if a.1.space = "xmlns".toList then some (a.1.localName, a.2)
  else if a.1.localName = "xmlns".toList then some ([], a.2)
  else none

/-- A declaration may not touch the two reserved namespaces. -/
def isLawful (d : Text × Text) : Bool :=
  d.2 != declarationSpace && ((d.1 == "xml".toList) == (d.2 == xmlSpace))

/-- The namespace of an attribute: none without label. -/
def attributeSpace? (spaces : Spaces) (name : QName) : Option Text :=
  if name.space.isEmpty then some [] else spaces.lookup name.space

/-- The attributes of a tag with their namespaces, declarations left out. -/
def expand? (spaces : Spaces) : List (QName × Text) → Option (List ((Text × Text) × Text))
  | [] => some []
  | a :: as =>
    match attributeSpace? spaces a.1, expand? spaces as with
    | some space, some rest => some (((space, a.1.localName), a.2) :: rest)
    | _, _ => none

/-- The declared labels and the attributes without namespace of a tag, if it is well formed. -/
def checkTag? (outer : Spaces) (name : QName) (as : List (QName × Text)) :
    Option (Spaces × List (Text × Text)) :=
  let declared := as.filterMap declaration?
  let labels := (declared.map (·.1)).filter fun l => !l.isEmpty
  let spaces := declared ++ outer
  let known := name.space.isEmpty || (spaces.lookup name.space).isSome
  if declared.all isLawful && decide labels.Nodup && known && name.space != "xmlns".toList then
    match expand? spaces (as.filter fun a => (declaration? a).isNone) with
    | none => none
    | some expanded =>
      if decide (expanded.map (·.1)).Nodup then
        some (spaces, (expanded.filter fun a => a.1.1.isEmpty).map fun a => (a.1.2, a.2))
      else none
  else none

/-- An element under way, its children in reverse. -/
structure OpenElement where
  name : QName
  attributes : List (Text × Text)
  row : Nat
  children : List Element := []
  spaces : Spaces

def OpenElement.close (e : OpenElement) : Element :=
  .mk e.name.localName e.attributes e.children.reverse e.row

/-- The elements under way, the innermost first, and the document element once it is closed. -/
structure TreeState where
  under : List OpenElement := []
  root : Option Element := none

/-- Hang a finished element into the one around it, or make it the document element. -/
def TreeState.hang (e : Element) (s : TreeState) : TreeState :=
  match s.under with
  | [] => { s with root := some e }
  | o :: rest => { s with under := { o with children := e :: o.children } :: rest }

/-- Take in one token. -/
def TreeState.step? (rows : Nat) (s : TreeState) (t : Token × Nat) : Option TreeState :=
  match t.1 with
  | .remark => some s
  | .cdata => if s.under.isEmpty then none else some s
  | .text body => if s.under.isEmpty && !body.all isSpace then none else some s
  | .closeTag name =>
    match s.under with
    | [] => none
    | o :: rest => if o.name = name then some ({ s with under := rest }.hang o.close) else none
  | .openTag name as closed =>
    if s.under.isEmpty && s.root.isSome then none
    else
      let outer := match s.under with
        | [] => [("xml".toList, xmlSpace)]
        | o :: _ => o.spaces
      match checkTag? outer name as with
      | none => none
      | some (spaces, attributes) =>
        let o : OpenElement :=
          { name := name, attributes := attributes, row := rows - t.2, spaces := spaces }
        if closed then some (s.hang o.close) else some { s with under := o :: s.under }

/-- The document element of a text, or nothing when the text is not a well-formed document. A byte
order mark may stand in front; a document type is refused. -/
def parse? (t : Text) : Option Element :=
  let body := match t with
    | '\uFEFF' :: rest => rest
    | _ => t
  let rows := body.count '\n' + 1
  match skipDeclaration? body with
  | none => none
  | some rest =>
    match tokens? rest with
    | none => none
    | some ts =>
      match ts.foldlM (TreeState.step? rows) {} with
      | none => none
      | some s => if s.under.isEmpty then s.root else none

end ProseLint.Xml
