import ProseLint.Markdown.Block
import ProseLint.Markdown.Html
import ProseLint.Markdown.LineStart
import ProseLint.Markdown.Link
import ProseLint.Markdown.Options

/-!
# The outline of a Markdown text

The lines are read one after another. A line first matches the containers that are open: quotes,
list items, definitions and footnotes. Then it goes on with the leaf that is open, or opens new
containers and a new leaf. Text that goes on with a paragraph need not match all its containers.
A list is loose when a blank line parts two of its items or two blocks of one item.
-/
namespace ProseLint.Markdown

/-- A container that is open. -/
inductive Holder where
  | quote
  | list (mark : Char) (tight : Bool)
  | item (indent : Nat)
  | footnote
  | definitionList
  | definition (indent : Nat)
  deriving DecidableEq, Repr

/-- An open container with its blocks, the last one first. -/
structure OpenBlock where
  holder : Holder
  offset : Nat
  children : List Block := []

/-- The leaf that is open. Lines of a paragraph stand with their offsets, the last one first; with
`term` it may be the term of a definition. -/
inductive OpenLeaf where
  | none
  | paragraph (lines : List (Nat × Text)) (term : Bool)
  | fenced (mark : Char) (length indent : Nat)
  | indented
  | html (stop : Html.BlockEnd)
  | metadata
  | table

structure OutlineState where
  /-- The open containers, the innermost first. -/
  holders : List OpenBlock := []
  /-- The blocks outside them, the last one first. -/
  outside : List Block := []
  leaf : OpenLeaf := .none
  /-- The line before was blank, as far as looseness goes. -/
  afterBlank : Bool := false
  /-- An item has begun with an empty line. -/
  emptyItem : Bool := false
  definitions : List (Text × Text) := []
  footnotes : List Text := []

namespace OutlineState

/-- Add a block to the innermost container. -/
def push (b : Block) (s : OutlineState) : OutlineState :=
  match s.holders with
  | [] => { s with outside := b :: s.outside }
  | h :: rest => { s with holders := { h with children := b :: h.children } :: rest }

/-- The block that was added last to the innermost container. -/
def last? (s : OutlineState) : Option Block :=
  match s.holders with
  | [] => s.outside.head?
  | h :: _ => h.children.head?

/-- Take away the block that was added last to the innermost container. -/
def dropLast (s : OutlineState) : OutlineState :=
  match s.holders with
  | [] => { s with outside := s.outside.tail }
  | h :: rest => { s with holders := { h with children := h.children.tail } :: rest }

def holder? (s : OutlineState) : Option Holder := s.holders.head?.map (·.holder)

/-- The blocks of a container that is complete. A last paragraph among definitions was no term and
goes behind the list. -/
def closed (h : OpenBlock) : List Block :=
  let children := h.children.reverse
  match h.holder with
  | .quote => [.quote children]
  | .list mark tight =>
    let items := if tight then children.map Block.tightenItem else children
    [.list (mark == '.' || mark == ')') items]
  | .item _ => [.item children]
  | .footnote => [.omitted .footnote h.offset]
  | .definitionList =>
    match h.children with
    | .term content :: _ => [.omitted .definitionList h.offset, .paragraph content]
    | _ => [.omitted .definitionList h.offset]
  | .definition _ => [.omitted .definitionList h.offset]

/-- Close the innermost container. -/
def pop (s : OutlineState) : OutlineState :=
  match s.holders with
  | [] => s
  | h :: rest =>
    let emptyItem := match h.holder with
      | .list _ _ => false
      | .definitionList => false
      | _ => s.emptyItem
    (closed h).foldl (fun s b => s.push b) { s with holders := rest, emptyItem := emptyItem }

/-- Close an item that began with an empty line and has nothing but blank lines since. -/
def finishEmptyItem (s : OutlineState) : OutlineState :=
  let s' := if s.emptyItem && s.afterBlank then
      match s.holder? with
      | some (.item _) => s.pop
      | some (.definition _) => s.pop
      | _ => s
    else s
  { s' with emptyItem := false }

/-- Mark the list around the innermost item as loose. -/
def loosen (s : OutlineState) : OutlineState :=
  match s.holders with
  | h :: l :: rest =>
    match l.holder with
    | .list mark _ => { s with holders := h :: { l with holder := .list mark false } :: rest }
    | _ => s
  | _ => s

/-- Close a list that is not inside one of its items, before a block that is no item of it. -/
def finishList (s : OutlineState) : OutlineState :=
  let s := s.finishEmptyItem
  let s := match s.holder? with
    | some (.list _ _) => s.pop
    | some .definitionList => s.pop
    | _ => s
  if s.afterBlank then { s.loosen with afterBlank := false } else s

/-- Go on with the list of a mark, or begin one. -/
def continueList (mark : Char) (offset : Nat) (s : OutlineState) : OutlineState :=
  let s := s.finishEmptyItem
  let fresh (s : OutlineState) : OutlineState :=
    { s with holders := ⟨.list mark true, offset, []⟩ :: s.holders, afterBlank := false }
  match s.holders with
  | [] => fresh s
  | h :: rest =>
    match h.holder with
    | .list mark' tight =>
      if mark' = mark then
        if s.afterBlank then
          { s with holders := { h with holder := .list mark false } :: rest, afterBlank := false }
        else { s with holders := { h with holder := .list mark tight } :: rest }
      else fresh s.finishList
    | _ => fresh s.finishList

/-- Close the paragraph that is open. Definitions of labels are taken off its front; of the rest a
heading is made if there is an underline. -/
def closeParagraph (lines : List (Nat × Text)) (term : Bool) (s : OutlineState) : OutlineState :=
  let (found, content) := takeDefinitions (PlacedText.ofLines lines.reverse)
  let s := { s with leaf := .none, definitions := s.definitions ++ found }
  let content := PlacedText.trimEnd content
  if content.isEmpty then s else s.push (if term then .term content else .paragraph content)

def closeLeaf (s : OutlineState) : OutlineState :=
  match s.leaf with
  | .paragraph lines term => s.closeParagraph lines term
  | _ => { s with leaf := .none }

/-- The place behind the mark of one container, if the line goes on with it. -/
def matchHolder? (c : Cursor) : Holder → Option Cursor
  | .quote =>
    let c := (c.columns 3).2
    match c.rest with
    | '>' :: _ => some ((c.skip 1).columns 1).2
    | _ => none
  | .item indent => matchIndent? indent
  | .definition indent => matchIndent? indent
  | .footnote => matchIndent? 4
  | .list _ _ => some c
  | .definitionList => some c
where
  /-- Enough blanks, or nothing else on the line. -/
  matchIndent? (indent : Nat) : Option Cursor :=
    match c.columns indent with
    | (0, c') => some c'
    | (_, c') => if c'.atEnd then some c' else none

/-- How many of the containers, the outermost first, a line goes on with, and the place behind
their marks. -/
def matchHolders (c : Cursor) : List OpenBlock → Nat × Cursor
  | [] => (0, c)
  | h :: hs =>
    match matchHolder? c h.holder with
    | none => (0, c)
    | some c' =>
      let r := matchHolders c' hs
      (r.1 + 1, r.2)

/-- The place behind the marks of all open containers, if the line has them all. -/
def matchAll? (s : OutlineState) (l : Line) : Option Cursor :=
  let r := matchHolders (Cursor.atStart l) s.holders.reverse
  if r.1 = s.holders.length then some r.2 else none

/-- The name of the footnote that begins at a text, and the length of its mark. -/
def footnoteStart? (t : Text) : Option (Text × Nat) :=
  match t with
  | '[' :: '^' :: rest =>
    match labelName? false rest with
    | some (name, n) =>
      match rest.drop n with
      | ':' :: _ => some (name, n + 3)
      | _ => none
    | none => none
  | _ => none

/-- A list item that may follow a paragraph right away: it is not empty and is numbered 1 if it is
numbered. Outside the paragraph's own containers every item may. -/
def itemInterrupts (inside : Bool) (c : Cursor) : Bool :=
  match LineStart.listMarker? 0 c with
  | none => false
  | some m =>
    !inside ||
      ((m.mark == '-' || m.mark == '+' || m.mark == '*' || m.number == 1) &&
        !isBlankLine m.behind.rest)

/-- Whether a line begins a block that ends a paragraph or a table. -/
def interrupts (opts : Options) (inside : Bool) (c : Cursor) : Bool :=
  isBlankLine c.rest || LineStart.isRule c.rest || (LineStart.headingLevel? c.rest).isSome ||
    (LineStart.fence? c.rest).isSome || c.rest.head? == some '>' || itemInterrupts inside c ||
    Html.interrupts c.rest ||
    (opts.definitionLists && inside && (LineStart.definitionMarker? 0 c).isSome) ||
    (opts.footnotes && (footnoteStart? c.rest).isSome)

/-- Whether a table's head follows a line with as many cells. -/
def headsTable (s : OutlineState) (line : Text) (next : Line) : Bool :=
  match s.matchAll? next with
  | none => false
  | some c =>
    match LineStart.headerCells? line, LineStart.tableColumns? c with
    | some n, some m => n == m
    | _, _ => false

/-- Whether a table begins at a line that starts with a bar. -/
def tableInterrupts (opts : Options) (s : OutlineState) (c : Cursor) (behind : List Line) :
    Bool :=
  opts.tables && c.rest.head? == some '|' &&
    match behind with
    | [] => false
    | next :: _ => s.headsTable c.rest next

/-! ## New blocks -/

/-- A blank line. -/
def blankLine (s : OutlineState) : OutlineState :=
  match s.holders with
  | [] => { s with afterBlank := true }
  | h :: rest =>
    match h.holder with
    | .quote => s
    | .item _ =>
      if s.emptyItem then
        { s with holders := { h with holder := .item 0 } :: rest, afterBlank := true }
      else { s with afterBlank := true }
    | .definition _ =>
      if s.emptyItem then
        { s with holders := { h with holder := .definition 0 } :: rest, afterBlank := true }
      else { s with afterBlank := true }
    | _ => { s with afterBlank := true }

/-- The text of a heading without its closing marks. -/
def headingText (t : Text) : Text :=
  let body := (t.reverse.dropWhile (· == ' ')).reverse
  let bare := (body.reverse.dropWhile (· == '#')).reverse
  if bare.isEmpty then []
  else if bare.getLast? == some ' ' then (bare.reverse.dropWhile (· == ' ')).reverse
  else body

/-- A heading that begins with number signs. -/
def addHeading (level : Nat) (c : Cursor) (s : OutlineState) : OutlineState :=
  let behind := c.rest.drop level
  let body := behind.dropWhile isLineSpace
  let offset := c.offset + level + (behind.length - body.length)
  let content := PlacedText.ofText offset (headingText body)
  let whole := PlacedText.trimEnd (PlacedText.ofText offset body)
  let tail := if content.length < whole.length && !content.isEmpty then
      (whole.drop content.length).head?.map (·.2)
    else none
  s.push (.heading level (PlacedText.trimEnd content) tail)

/-- Whether the next paragraph may be a term: it stands right behind a definition of a list. -/
def takesTerm (s : OutlineState) : Bool :=
  match s.holders with
  | [] => false
  | h :: _ =>
    match h.holder, h.children with
    | .definitionList, [] => true
    | .definitionList, .omitted _ _ :: _ => true
    | _, _ => false

/-- Open a paragraph at its first line. Among definitions it may turn out to be a term. -/
def openParagraph (c : Cursor) (s : OutlineState) : OutlineState :=
  if s.takesTerm then { s with leaf := .paragraph [(c.offset, c.rest)] true }
  else { s.finishList with leaf := .paragraph [(c.offset, c.rest)] false }

/-- Open the leaf at a place that is not blank. -/
def openLeaf (opts : Options) (behind : List Line) (c : Cursor) (s : OutlineState) :
    OutlineState :=
  match c.columns 4 with
  | (0, _) =>
    { s.finishList.push (.omitted .codeBlock c.offset) with leaf := .indented, afterBlank := false }
  | (missing, c) =>
    if missing = 4 ∧ opts.metadata ∧ LineStart.opensMetadata c.rest behind then
      { s.finishList.push (.omitted .metadata c.offset) with leaf := .metadata }
    else
      match Html.blockEnd? c.rest with
      | some stop =>
        let s := s.finishList.push (.omitted .htmlBlock c.offset)
        match stop with
        | .mark m => if Text.hasFactor m c.rest then s else { s with leaf := .html stop }
        | .blankLine => { s with leaf := .html stop }
      | none =>
        if LineStart.isRule c.rest then s.finishList.push (.rule c.offset)
        else
          match LineStart.headingLevel? c.rest with
          | some level => s.finishList.addHeading level c
          | none =>
            match LineStart.fence? c.rest with
            | some (mark, n) =>
              { s.finishList.push (.omitted .codeBlock c.offset) with
                leaf := .fenced mark n (4 - missing) }
            | none => s.openParagraph c

/-- Whether a definition may begin behind the block that came last, which is its term then. -/
def takesDefinition (s : OutlineState) : Bool :=
  match s.last? with
  | some (.paragraph _) => true
  | some (.term _) => true
  | some (.omitted .definitionList _) => s.holder? == some .definitionList
  | _ => false

/-- Open the definition of a marker, and the list around it when there is none yet. -/
def openDefinition (m : LineStart.Marker) (offset : Nat) (s : OutlineState) : OutlineState :=
  let definition : OpenBlock := ⟨.definition m.indent, offset, []⟩
  match s.last? with
  | some (.paragraph _) =>
    let s := s.dropLast
    { s with holders :=
      definition :: ⟨.definitionList, offset, [.omitted .definitionList offset]⟩ :: s.holders }
  | some (.term _) =>
    let s := s.dropLast.push (.omitted .definitionList offset)
    { s with holders := definition :: s.holders }
  | _ => { s with holders := definition :: s.holders }

/-- What a line opens at a place: a container, after which more may follow, or nothing. -/
def openHolder? (opts : Options) (c : Cursor) (s : OutlineState) :
    Option (OutlineState × Cursor × Bool) :=
  match c.columns 4 with
  | (0, _) => none
  | (missing, c) =>
    let indent := 4 - missing
    match if opts.footnotes then footnoteStart? c.rest else none with
    | some (name, n) =>
      let s := s.finishList
      let s := if s.holder? = some .footnote then s.pop else s
      let behind := c.rest.drop n
      let rest := behind.dropWhile isLineSpace
      let length := Text.byteLength (c.rest.take n) + (behind.length - rest.length)
      some ({ s with
          holders := ⟨.footnote, c.offset, []⟩ :: s.holders
          footnotes := name :: s.footnotes },
        ⟨rest, c.offset + length, 0, 0⟩, false)
    | none =>
      match LineStart.listMarker? indent c with
      | some m =>
        let s := s.continueList m.mark c.offset
        let s := { s with holders := ⟨.item m.indent, c.offset, []⟩ :: s.holders }
        if isBlankLine m.behind.rest then some ({ s with emptyItem := true }, m.behind, true)
        else some (s, m.behind, false)
      | none =>
        match if opts.definitionLists && s.takesDefinition then
            LineStart.definitionMarker? indent c else none with
        | some m =>
          let s := s.openDefinition m c.offset
          if isBlankLine m.behind.rest then some ({ s with emptyItem := true }, m.behind, true)
          else some (s, m.behind, false)
        | none =>
          match c.rest with
          | '>' :: _ =>
            let s := s.finishList
            some ({ s with holders := ⟨.quote, c.offset, []⟩ :: s.holders },
              ((c.skip 1).columns 1).2, false)
          | _ => none

/-- The box of a task at the front of an item just opened. -/
def openTask (opts : Options) (c : Cursor) (s : OutlineState) : OutlineState × Cursor :=
  match s.holders with
  | h :: _ =>
    match h.holder with
    | .item _ =>
      if opts.taskLists && h.children.isEmpty then
        match LineStart.taskBox? c with
        | some behind => (s.push (.task c.offset), behind.skipBlanks)
        | none => (s, c)
      else (s, c)
    | _ => (s, c)
  | [] => (s, c)

/-- Open what a line opens behind the containers that it goes on with. -/
def openBlocks (opts : Options) (behind : List Line) (c : Cursor) (s : OutlineState) :
    OutlineState :=
  match s.openHolder? opts c with
  | some (s, _, true) => s
  | some (s, c', false) =>
    if _ : c'.rest.length < c.rest.length then
      let (s, c'') := s.openTask opts c'
      if c''.rest.length < c'.rest.length then s.openLeaf opts behind c''
      else s.openBlocks opts behind c'
    else s
  | none =>
    if isBlankLine c.rest then s.blankLine else s.openLeaf opts behind c
termination_by c.rest.length

/-- Close the containers behind the first `n`, which a line does not go on with. -/
def closeTo (n : Nat) (s : OutlineState) : OutlineState :=
  Nat.repeat pop (s.holders.length - n) s

/-! ## Lines -/

/-- Read a line that goes on with no leaf. -/
def freshLine (opts : Options) (behind : List Line) (l : Line) (s : OutlineState) :
    OutlineState :=
  let s := s.closeLeaf
  let r := matchHolders (Cursor.atStart l) s.holders.reverse
  (s.closeTo r.1).openBlocks opts behind r.2

/-- The heading that an underline makes of a paragraph, unless nothing but definitions is in it. -/
def underline? (level : Nat) (lines : List (Nat × Text)) (s : OutlineState) :
    Option OutlineState :=
  let (found, content) := takeDefinitions (PlacedText.ofLines lines.reverse)
  let content := PlacedText.trimEnd content
  if content.isEmpty then none
  else
    let s := { s with leaf := .none, definitions := s.definitions ++ found }
    some (s.push (.heading level content none))

/-- Read a line behind a paragraph's first `lines`. -/
def paragraphLine (opts : Options) (behind : List Line) (l : Line) (lines : List (Nat × Text))
    (term : Bool) (s : OutlineState) : OutlineState :=
  let r := matchHolders (Cursor.atStart l) s.holders.reverse
  let inside := r.1 == s.holders.length
  let table := match lines with
    | [first] => opts.tables && s.headsTable first.2 l
    | _ => false
  if table then
    { s.push (.omitted .table ((lines.head?.map (·.1)).getD 0)) with leaf := .table }
  else
    let goOn (c : Cursor) : OutlineState :=
      let c := c.skipBlanks
      if c.atEnd then s.freshLine opts behind l
      else { s with leaf := .paragraph ((c.offset, c.rest) :: lines) term }
    match r.2.columns 4 with
    | (0, c) => goOn c
    | (_, c) =>
      let heading := match if inside then LineStart.underlineLevel? c.rest else none with
        | some level => s.underline? level lines
        | none => none
      match heading with
      | some s => s
      | none =>
        if interrupts opts inside c || s.tableInterrupts opts c behind then
          s.freshLine opts behind l
        else goOn c

/-- Read a line, where `behind` are the lines that follow it. -/
def readLine (opts : Options) (s : OutlineState) (l : Line) (behind : List Line) : OutlineState :=
  match s.leaf, s.matchAll? l with
  | .none, _ => s.freshLine opts behind l
  | .paragraph lines term, _ => s.paragraphLine opts behind l lines term
  | _, none => s.freshLine opts behind l
  | .fenced mark n indent, some c =>
    let c := (c.columns indent).2
    match c.columns (4 - indent) with
    | (0, _) => s
    | (_, c) => if LineStart.closesFence mark n c.rest then { s with leaf := .none } else s
  | .indented, some c =>
    match c.columns 4 with
    | (0, c) => { s with afterBlank := isBlankLine c.rest }
    | (_, c) => if c.atEnd then { s with afterBlank := true } else s.freshLine opts behind l
  | .html (.mark m), some c => if Text.hasFactor m c.rest then { s with leaf := .none } else s
  | .html .blankLine, some c => if isBlankLine c.rest then s.freshLine opts behind l else s
  | .metadata, some c =>
    if LineStart.closesMetadata ⟨c.offset, c.rest, l.ended⟩ then { s with leaf := .none } else s
  | .table, some c => if interrupts opts true c.skipBlanks then s.freshLine opts behind l else s

def readLines (opts : Options) (s : OutlineState) : List Line → OutlineState
  | [] => s
  | l :: ls => readLines opts (s.readLine opts l ls) ls

end OutlineState

/-- The outline of a text. -/
def outline (opts : Options) (t : Text) : Outline :=
  let s := (OutlineState.readLines opts {} (Line.all t)).closeLeaf
  let s := s.closeTo 0
  ⟨s.outside.reverse, s.definitions, s.footnotes⟩

end ProseLint.Markdown
