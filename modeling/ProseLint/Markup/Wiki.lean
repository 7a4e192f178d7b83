import ProseLint.Markup.SourceLine
import ProseLint.Markup.WikiInline

/-!
# The wiki dialect

Each line is read by itself: `h1.` to `h6.` open headers, a run of `*`, `-` and `#` marks a list
item whose depth is the length of the run, `|` starts a table row, `----` is a rule, and a line
that starts with `{code` opens or closes a block of code. Any other line is text of a paragraph, and
a blank line ends what is open.
-/
namespace ProseLint.Markup.Wiki

/-- A list under way; each item is its nodes. -/
structure OpenList where
  ordered : Bool
  items : List (List Node) := []

namespace OpenList

def toNode (l : OpenList) : Node :=
  .container (if l.ordered then .orderedList else .bulletList)
    (l.items.map (.container .listItem))

def addItem (content : List Node) (l : OpenList) : OpenList :=
  { l with items := l.items ++ [content] }

/-- Hang a finished list off the last item. -/
def hang (n : Node) (l : OpenList) : OpenList :=
  match l.items.getLast? with
  | some item => { l with items := l.items.dropLast ++ [item ++ [n]] }
  | none => { l with items := [[n]] }

end OpenList

/-- The blocks read so far; the open lists stand with the innermost first. -/
structure State where
  blocks : List Node := []
  paragraph : Option (List Node) := none
  lists : List OpenList := []
  inCode : Bool := false
  inTable : Bool := false

namespace State

def pushBlock (n : Node) (s : State) : State := { s with blocks := s.blocks ++ [n] }

def leaveOut (kind : OmittedKind) (s : State) : State := s.pushBlock (.leaf (.omitted kind))

def closeParagraph (s : State) : State :=
  match s.paragraph with
  | some children => { s.pushBlock (.container .paragraph children) with paragraph := none }
  | none => s

def closeInnermostList (s : State) : State :=
  match s.lists with
  | [] => s
  | [l] => { s.pushBlock l.toNode with lists := [] }
  | l :: outer :: rest => { s with lists := outer.hang l.toNode :: rest }

/-- Close lists until at most `depth` of them are open. -/
def closeListsTo (depth : Nat) (s : State) : State :=
  Nat.repeat closeInnermostList (s.lists.length - depth) s

def closeBlocks (s : State) : State :=
  { s.closeParagraph.closeListsTo 0 with inTable := false }

/-- Add an item at a depth, closing deeper lists and opening missing ones. -/
def addItem (depth : Nat) (ordered : Bool) (content : List Node) (s : State) : State :=
  let s := s.closeListsTo depth
  let lists := List.replicate (depth - s.lists.length) ⟨ordered, []⟩ ++ s.lists
  match lists with
  | [] => s
  | l :: rest => { s with lists := l.addItem content :: rest }

end State

def codeMark : Text := "\x7bcode".toList

/-- Four or more hyphens and nothing else but blanks. -/
def isRule (line : Text) : Bool :=
  let hyphens := Text.trim line
  4 ≤ hyphens.length && hyphens.all (· == '-')

/-- The level of a header line and its body, blanks before the body taken off. -/
def header? : Text → Option (Nat × Text)
  | 'h' :: d :: '.' :: body =>
    if '1' ≤ d ∧ d ≤ '6' then some (d.toNat - '0'.toNat, Text.trimStart body) else none
  | _ => none

def isMarker (c : Char) : Bool := c == '*' || c == '#' || c == '-'

/-- The marks of a list item and its body: the marks stand at the front of the line, blanks before
them not counted, and a blank stands behind them. -/
def listItem? (line : Text) : Option (Text × Text) :=
  let start := Text.trimStart line
  let marks := start.takeWhile isMarker
  match start.dropWhile isMarker with
  | [] => none
  | c :: body =>
    if !marks.isEmpty && isBlank c then some (marks, Text.trimStart body) else none

/-- The nodes of the end of a line. -/
def inlineEnd (l : SourceLine) (body : Text) : List Node :=
  inline (l.offset + (Text.byteLength l.text - Text.byteLength body)) body

/-- A line of a paragraph. -/
def addText (s : State) (l : SourceLine) : State :=
  let s := s.closeListsTo 0
  let nodes := inline l.offset l.text
  match s.paragraph with
  | some children =>
    { s with paragraph := some (children ++ .text l.joinerOffset [' '] :: nodes) }
  | none => { s with paragraph := some nodes }

/-- A line outside code that is neither blank nor part of a table. -/
def addPlainLine (s : State) (l : SourceLine) : State :=
  if isRule l.text then s.closeBlocks.leaveOut .rule
  else match header? l.text with
    | some (level, body) =>
      s.closeBlocks.pushBlock (.container (.header level) (inlineEnd l body))
    | none =>
      match listItem? l.text with
      | some (marks, body) =>
        s.closeParagraph.addItem marks.length (marks.head? == some '#') (inlineEnd l body)
      | none => addText s l

/-- Take in one line. -/
def addLine (s : State) (l : SourceLine) : State :=
  let line := Text.trim l.text
  match s.inCode, Text.dropStart? codeMark line with
  | true, found => { s with inCode := found.isNone }
  | false, some rest =>
    { s.closeBlocks.leaveOut .codeBlock with inCode := !Text.hasFactor codeMark rest }
  | false, none =>
    if line.isEmpty then s.closeBlocks
    else if line.head? == some '|' then
      if s.inTable then s else { s.closeBlocks.leaveOut .table with inTable := true }
    else addPlainLine { s with inTable := false } l

/-- The markup tree of a wiki text. -/
def read (source : Text) : Node :=
  .container .root ((SourceLine.all source).foldl addLine {}).closeBlocks.blocks

end ProseLint.Markup.Wiki
