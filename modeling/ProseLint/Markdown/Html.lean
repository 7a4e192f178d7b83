import ProseLint.Markdown.Cursor

/-!
# Raw HTML

Tags, comments, instructions, declarations and `CDATA` are recognised inside a line of text, and by
the first line of a block. A scan gives the number of characters that the piece of HTML takes.
-/
namespace ProseLint.Markdown.Html

def isSpace (c : Char) : Bool := isLineSpace c || c == '\n' || c == '\r'

def isTagCharacter (c : Char) : Bool := c.isAlphanum || c == '-'

def isAttributeStart (c : Char) : Bool := c.isAlpha || c == '_' || c == ':'

def isAttributeCharacter (c : Char) : Bool :=
  c.isAlphanum || c == '_' || c == ':' || c == '.' || c == '-'

/-- A character that cannot stand in a value without quotes. -/
def endsBareValue (c : Char) : Bool :=
  isSpace c || c == '"' || c == '\'' || c == '=' || c == '<' || c == '>' || c == '`'

/-- How far a tag is read: between attributes, in a name, in a value, or behind the slash that
closes it. `blank` tells whether a blank stands before the place. -/
inductive TagScan where
  | gap (blank : Bool)
  | attribute
  /-- Behind an attribute's name and blanks. -/
  | behindName
  | beforeValue
  | bareValue
  | quoted (quote : Char)
  | slash
  | complete
  deriving DecidableEq, Repr

/-- One more character of a tag behind its name. -/
def TagScan.step? (s : TagScan) (c : Char) : Option TagScan :=
  match s with
  | .gap blank =>
    if isSpace c then some (.gap true)
    else if c = '>' then some .complete
    else if c = '/' then some .slash
    else if blank && isAttributeStart c then some .attribute
    else none
  | .attribute =>
    if isAttributeCharacter c then some .attribute
    else if isSpace c then some .behindName
    else if c = '=' then some .beforeValue
    else if c = '>' then some .complete
    else if c = '/' then some .slash
    else none
  | .behindName =>
    if isSpace c then some .behindName
    else if c = '=' then some .beforeValue
    else if c = '>' then some .complete
    else if c = '/' then some .slash
    else if isAttributeStart c then some .attribute
    else none
  | .beforeValue =>
    if isSpace c then some .beforeValue
    else if c = '"' ∨ c = '\'' then some (.quoted c)
    else if endsBareValue c then none
    else some .bareValue
  | .bareValue =>
    if isSpace c then some (.gap true)
    else if c = '>' then some .complete
    else if endsBareValue c then none
    else some .bareValue
  | .quoted quote => some (if c = quote then .gap false else .quoted quote)
  | .slash => if c = '>' then some .complete else none
  | .complete => none

/-- The number of characters up to the end of a tag, from a place behind its name. -/
def tagEnd? (s : TagScan) : Text → Option Nat
  | [] => none
  | c :: t =>
    match s.step? c with
    | none => none
    | some .complete => some 1
    | some s => (tagEnd? s t).map (· + 1)

/-- The length of an opening or closing tag. -/
def tag? (t : Text) : Option Nat :=
  match t with
  | '<' :: '/' :: c :: rest =>
    if c.isAlpha then
      let name := rest.takeWhile isTagCharacter
      let behind := rest.drop name.length
      let blanks := behind.takeWhile isSpace
      match behind.drop blanks.length with
      | '>' :: _ => some (name.length + blanks.length + 4)
      | _ => none
    else none
  | '<' :: c :: rest =>
    if c.isAlpha then
      let name := rest.takeWhile isTagCharacter
      (tagEnd? (.gap false) (rest.drop name.length)).map (· + (name.length + 2))
    else none
  | _ => none

/-- The number of characters up to and with the first occurrence of a mark. -/
def through? (mark : Text) : Text → Option Nat
  | [] => none
  | c :: t =>
    if mark.isPrefixOf (c :: t) then some mark.length else (through? mark t).map (· + 1)

/-- The length of the piece of HTML at the front of a text. -/
def inline? (t : Text) : Option Nat :=
  match t with
  | '<' :: '!' :: '-' :: '-' :: '>' :: _ => some 5
  | '<' :: '!' :: '-' :: '-' :: '-' :: '>' :: _ => some 6
  | '<' :: '!' :: '-' :: '-' :: rest => (through? "-->".toList rest).map (· + 4)
  | '<' :: '!' :: '[' :: 'C' :: 'D' :: 'A' :: 'T' :: 'A' :: '[' :: rest =>
    (through? "]]>".toList rest).map (· + 9)
  | '<' :: '!' :: c :: rest => if c.isAlpha then (through? ['>'] rest).map (· + 3) else none
  | '<' :: '?' :: rest => (through? "?>".toList rest).map (· + 2)
  | _ => tag? t

/-- Elements whose block goes on to its closing tag. -/
def verbatimNames : List String := ["pre", "style", "script", "textarea"]

/-- Elements whose tags begin a block that a blank line ends. -/
def blockNames : List String :=
  ["address", "article", "aside", "base", "basefont", "blockquote", "body", "caption", "center",
    "col", "colgroup", "dd", "details", "dialog", "dir", "div", "dl", "dt", "fieldset",
    "figcaption", "figure", "footer", "form", "frame", "frameset", "h1", "h2", "h3", "h4", "h5",
    "h6", "head", "header", "hr", "html", "iframe", "legend", "li", "link", "main", "menu",
    "menuitem", "nav", "noframes", "ol", "optgroup", "option", "p", "param", "search", "section",
    "summary", "table", "tbody", "td", "tfoot", "th", "thead", "title", "tr", "track", "ul"]

/-- How a block of HTML ends: on the line that holds a mark, or before a blank line. -/
inductive BlockEnd where
  | mark (t : Text)
  | blankLine
  deriving DecidableEq, Repr

/-- The end of a verbatim element that begins at the front of a text without its `<`. -/
def verbatimEnd? (t : Text) (name : String) : Option BlockEnd :=
  let n := name.toList
  if Text.asciiLower (t.take n.length) = n then
    match t.drop n.length with
    | [] => some (.mark ("</".toList ++ n ++ ['>']))
    | c :: _ => if isSpace c || c == '>' then some (.mark ("</".toList ++ n ++ ['>'])) else none
  else none

/-- The end of a block that may stand right behind a paragraph; the text is without its `<`. -/
def strongBlockEnd? (t : Text) : Option BlockEnd :=
  match verbatimNames.findSome? (verbatimEnd? t) with
  | some e => some e
  | none =>
    match t with
    | '!' :: '-' :: '-' :: _ => some (.mark "-->".toList)
    | '?' :: _ => some (.mark "?>".toList)
    | '!' :: '[' :: 'C' :: 'D' :: 'A' :: 'T' :: 'A' :: '[' :: _ => some (.mark "]]>".toList)
    | '!' :: c :: _ => if c.isAlpha then some (.mark ['>']) else none
    | _ =>
      let tail := match t with
        | '/' :: rest => rest
        | _ => t
      let name := tail.takeWhile Char.isAlphanum
      let opens := match tail.drop name.length with
        | [] => true
        | '/' :: '>' :: _ => true
        | c :: _ => isSpace c || c == '>'
      if opens && blockNames.any (fun n => n.toList == Text.asciiLower name) then some .blankLine
      else none

/-- The end of a block that begins with this line. A single tag on a line of its own begins one
too. -/
def blockEnd? (t : Text) : Option BlockEnd :=
  match t with
  | '<' :: rest =>
    match strongBlockEnd? rest with
    | some e => some e
    | none =>
      match tag? t with
      | some n => if isBlankLine (t.drop n) then some .blankLine else none
      | none => none
  | _ => none

/-- Whether the line begins a block that interrupts a paragraph. -/
def interrupts (t : Text) : Bool :=
  match t with
  | '<' :: rest => (strongBlockEnd? rest).isSome
  | _ => false

end ProseLint.Markdown.Html
