import ProseLint.Diagnostic
import ProseLint.Document.Build
import ProseLint.LineTable
import ProseLint.Markup
import ProseLint.Sentence.Session

/-!
# Documents from markup trees

The tree is visited from left to right. Inline text is held back as spans until a paragraph, a
header or a list item is complete; then its sentences are extracted and placed. A header opens a
section below the nearest section before it, or around that one, whose level is lower. Inside a
list nothing but the list itself is built: paragraphs and headers become text of its elements.
-/
namespace ProseLint.Markup

/-- What the compilation of every node of one tree depends on. -/
structure Context where
  lines : LineTable
  terminators : Terminators

/-- The document so far, the remarks on it, the text held back, and how many lists are open. -/
structure Compilation where
  document : Document
  diagnostics : List Diagnostic := []
  held : List Span := []
  listDepth : Nat := 0

namespace Compilation

def note (message : Text) (line : Option Nat) (c : Compilation) : Compilation :=
  { c with diagnostics := c.diagnostics ++ [Diagnostic.note message line] }

def warn (message : Text) (line : Option Nat) (c : Compilation) : Compilation :=
  { c with diagnostics := c.diagnostics ++ [Diagnostic.warning message line] }

def build (f : Document → Document) (c : Compilation) : Compilation :=
  { c with document := f c.document }

/-- Hold back the text of a leaf. -/
def hold (ctx : Context) (offset : Nat) (text : Text) (link : Option Text) (c : Compilation) :
    Compilation :=
  { c with held := c.held ++ [⟨ctx.lines.lineNumber offset, text, link⟩] }

/-- The blanks that the text held back begins with. -/
def heldIndent (c : Compilation) : Text := (c.held.flatMap (·.text)).takeWhile isBlank

/-- The sentences of the text held back, which is held no longer. -/
def release (ctx : Context) (c : Compilation) : List Sentence × Compilation :=
  (extract ctx.terminators c.held, { c with held := [] })

/-- Move the text held back into the current paragraph. -/
def flush (ctx : Context) (c : Compilation) : Compilation :=
  let (sentences, c) := c.release ctx
  c.build fun d => sentences.foldl (fun d s => d.addSentence s) d

/-- Add a list element at the current depth unless it is empty. -/
def addElement (sentences : List Sentence) (c : Compilation) : Compilation :=
  if sentences.isEmpty then c else c.build (Document.addElement c.listDepth sentences)

/-- Move the text held back into a list element. -/
def flushElement (ctx : Context) (c : Compilation) : Compilation :=
  let (sentences, c) := c.release ctx
  c.addElement sentences

/-- Give a url to the text held back last. -/
def link (url : Text) (c : Compilation) : Compilation :=
  match c.held.getLast? with
  | some span => { c with held := c.held.dropLast ++ [{ span with link := some url }] }
  | none => c.warn ("link to '".toList ++ url ++ "' has no text to attach to".toList) none

/-- Begin a list: the outermost one opens a block, another ends the element before it. -/
def openList (ctx : Context) (c : Compilation) : Compilation :=
  let c := if c.listDepth = 0 then (c.flush ctx).build Document.addList else c.flushElement ctx
  { c with listDepth := c.listDepth + 1 }

def closeList (c : Compilation) : Compilation := { c with listDepth := c.listDepth - 1 }

/-- The nearest section that a section of this level may stand below, going up from `start`; or
else the last section on the way. The first argument bounds the way. -/
def findParent (d : Document) (level : Nat) : Nat → Nat → Nat ⊕ Nat
  | 0, start => .inr start
  | n + 1, start =>
    if d.levelOf start < level then .inl start
    else match d.parentOf start with
      | some above => findParent d level n above
      | none => .inr start

/-- The remark on a header that had to become a root beside a root of another level. -/
def promotion (level : Nat) (header : List Sentence) (rootLevel : Nat) : Diagnostic :=
  let first := header.head?
  Diagnostic.warning
    ("no parent section for level ".toList ++ Text.ofNat level ++ " header '".toList ++
      (first.map (·.content)).getD [] ++ "' (previous root is level ".toList ++
      Text.ofNat rootLevel ++ "); promoted to root".toList)
    (first.map (·.line))

/-- Add a section and place it in the forest. -/
def addSection (level : Nat) (header : List Sentence) (c : Compilation) : Compilation :=
  let d := c.document.addSection level header
  let new := c.document.sections.length
  match c.document.lastSection? with
  | none => { c with document := d.addRoot new }
  | some previous =>
    match findParent d level c.document.sections.length previous with
    | .inl parent => { c with document := d.attachChild parent new }
    | .inr root =>
      let c' := { c with document := d.addRoot new }
      if d.levelOf root = level then c'
      else { c' with diagnostics := c'.diagnostics ++ [promotion level header (d.levelOf root)] }

/-- The remark on a header inside a list, whose text becomes a list element. -/
def keepHeader (ctx : Context) (c : Compilation) : Compilation :=
  let (header, c) := c.release ctx
  match header.head? with
  | none => c
  | some first =>
    (c.note ("header '".toList ++ first.content ++
      "' inside a list item kept as list text".toList) (some first.line)).addElement header

mutual

/-- Take one node into the document. -/
def visit (ctx : Context) (c : Compilation) : Node → Compilation
  | .leaf (.text offset t) => c.hold ctx offset t none
  | .leaf (.code offset t) => c.hold ctx offset t none
  | .leaf (.autolink offset url) => c.hold ctx offset url (some url)
  | .leaf (.special offset kind) => c.hold ctx offset kind.glyph none
  | .leaf (.omitted kind) => c.note (kind.name ++ " omitted from the document model".toList) none
  | .container .root children => visitAll ctx c children
  | .container .quote children => visitAll ctx c children
  | .container .emphasis children => visitAll ctx c children
  | .container (.link url) children => (visitAll ctx c children).link url
  | .container .paragraph children =>
    if c.listDepth = 0 then
      let c := visitAll ctx ((c.flush ctx).build Document.addParagraph) children
      let indent := c.heldIndent
      let c := c.flush ctx
      if indent.isEmpty then c else c.build (Document.setIndent indent)
    else visitAll ctx c children
  | .container (.header level) children =>
    if c.listDepth = 0 then
      let (header, c) := (visitAll ctx (c.flush ctx) children).release ctx
      c.addSection level header
    else (visitAll ctx (c.flushElement ctx) children).keepHeader ctx
  | .container .bulletList children => (visitAll ctx (c.openList ctx) children).closeList
  | .container .orderedList children => (visitAll ctx (c.openList ctx) children).closeList
  | .container .listItem children => (visitAll ctx c children).flushElement ctx

def visitAll (ctx : Context) (c : Compilation) : List Node → Compilation
  | [] => c
  | n :: ns => visitAll ctx (visit ctx c n) ns

end

end Compilation

/-- The document of a tree, and the remarks on it. -/
def compile (ctx : Context) (name : Text) (tree : Node) : Document × List Diagnostic :=
  let c := (Compilation.visit ctx { document := { name := name } } tree).flush ctx
  (c.document, c.diagnostics)

end ProseLint.Markup
