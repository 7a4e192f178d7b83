import ProseLint.Markdown.Event
import ProseLint.Markdown.Html
import ProseLint.Markdown.Link
import ProseLint.Markdown.Token

/-!
# Inline structure

The tokens of a block are resolved in two steps. First code, raw HTML, autolinks and links are
found, from left to right: what they cover is markup no more. Then the runs that are left are paired
into emphasis, and quotation marks are turned into curved ones.
-/
namespace ProseLint.Markdown

/-- An inline element. The first step leaves runs and quotes, which the second step resolves. -/
inductive Inline where
  | event (offset : Nat) (e : Event)
  | run (mark : Char) (offset count : Nat) (opens closes : Bool)
  | quote (mark : Char) (offset : Nat) (opens closes : Bool)
  | container (offset : Nat) (tag : Tag) (children : List Inline)

namespace Inline

def text (offset : Nat) (t : Text) : Inline := .event offset (.text t)

/-- Curve the quotation marks of a sequence; `isOpen` tells whether a double one is open. A single
mark is taken for an apostrophe. -/
def curve (isOpen : Bool) : List Inline → List Inline
  | [] => []
  | .quote mark offset opens closes :: rest =>
    if mark = '\'' then text offset ['’'] :: curve isOpen rest
    else if closes && isOpen then text offset ['”'] :: curve false rest
    else text offset ['“'] :: curve (isOpen || opens) rest
  | i :: rest => i :: curve isOpen rest

/-- A run that may open emphasis, with what came before it; `count` of its marks are left of
`length`. -/
structure Opener where
  mark : Char
  offset : Nat
  count : Nat
  length : Nat
  both : Bool
  before : List Inline

/-- The marks of a run as plain text, the last one first. -/
def plainMarks (mark : Char) (offset : Nat) : Nat → List Inline
  | 0 => []
  | n + 1 => text (offset + n) [mark] :: plainMarks mark offset n

/-- Whether an opener matches a closing run. When one of them could do both, their lengths may not
add up to a multiple of three, unless both are one; tildes match tildes as many. -/
def Opener.pairs (o : Opener) (mark : Char) (length : Nat) (both : Bool) : Bool :=
  o.mark == mark && (mark != '~' || o.length == length) &&
    ((!both && !o.both) || (length + o.length) % 3 != 0 || length % 3 == 0)

/-- Give up an opener: its marks and what stands behind it are plain. Elements stand with the last
one first. -/
def Opener.giveUp (o : Opener) (behind : List Inline) : List Inline :=
  behind ++ plainMarks o.mark o.offset o.count ++ o.before

/-- Find the nearest opener that matches and give up those behind it: the opener, what stands behind
it, and the openers before it. -/
def findOpener? (mark : Char) (length : Nat) (both : Bool) (behind : List Inline) :
    List Opener → Option (Opener × List Inline × List Opener)
  | [] => none
  | o :: os =>
    if o.pairs mark length both then some (o, behind, os)
    else findOpener? mark length both (o.giveUp behind) os

/-- Wrap contents in `n` pairs of marks, two at a time from the inside. -/
def wrap (mark : Char) (offset : Nat) (contents : List Inline) : Nat → List Inline
  | 0 => contents
  | 1 => [.container offset (if mark = '~' then .strikethrough else .emphasis) contents]
  | n + 2 =>
    wrap mark offset [.container offset (if mark = '~' then .strikethrough else .strong) contents] n

/-- The elements so far, the last one first, and the openers, the nearest first. -/
structure Pairing where
  elements : List Inline := []
  openers : List Opener := []

/-- Close as many openers as the `count` marks that are left of a closing run can; the first number
bounds the rounds. The result tells how many marks are left over. -/
def closeRun (mark : Char) (length : Nat) (both : Bool) :
    Nat → Nat → Pairing → Nat × Pairing
  | 0, count, s => (count, s)
  | rounds + 1, count, s =>
    if count = 0 then (0, s)
    else
      match findOpener? mark length both s.elements s.openers with
      | none => (count, s)
      | some (o, inner, os) =>
        let n := min count o.count
        let wrapped := wrap mark (o.offset + (o.count - n)) inner.reverse n
        let s' : Pairing :=
          if n < o.count then ⟨wrapped, { o with count := o.count - n } :: os⟩
          else ⟨wrapped ++ o.before, os⟩
        closeRun mark length both rounds (count - n) s'

/-- Take in one element. -/
def Pairing.step (s : Pairing) : Inline → Pairing
  | .run mark offset count opens closes =>
    let both := opens && closes
    let (left, s) := if closes then closeRun mark count both count count s else (count, s)
    if left = 0 then s
    else if opens then
      { elements := [],
        openers := ⟨mark, offset + (count - left), left, count, both, s.elements⟩ :: s.openers }
    else { s with elements := plainMarks mark (offset + (count - left)) left ++ s.elements }
  | i => { s with elements := i :: s.elements }

/-- Give up every opener that is left. -/
def giveUpAll (behind : List Inline) : List Opener → List Inline
  | [] => behind
  | o :: os => giveUpAll (o.giveUp behind) os

/-- Resolve the runs and quotation marks of a sequence. -/
def resolve (is : List Inline) : List Inline :=
  let s := (curve false is).foldl Pairing.step {}
  (giveUpAll s.elements s.openers).reverse

end Inline

/-- What labels mean in a text. -/
structure LabelTable where
  definitions : List (Text × Text)
  footnotes : List Text

/-- A bracket that may open a link, with what came before it. A bracket around a link is `dead`. -/
structure OpenBracket where
  image : Bool
  dead : Bool
  start : Nat
  behind : PlacedText
  before : List Inline

/-- The elements so far, the last one first, the open brackets, the nearest first, and the offset up
to which tokens are covered by the element before them. Closing brackets that stand in `spent` end
no label of their own. -/
structure Linking where
  elements : List Inline := []
  brackets : List OpenBracket := []
  covered : Nat := 0
  spent : List Nat := []

namespace Linking

def add (i : Inline) (s : Linking) : Linking := { s with elements := i :: s.elements }

def addText (offset : Nat) (t : Text) (s : Linking) : Linking := s.add (.text offset t)

def OpenBracket.mark (b : OpenBracket) : Text := if b.image then ['!', '['] else ['[']

/-- Take a bracket for plain text. -/
def giveUp (b : OpenBracket) (behind : List Inline) : List Inline :=
  behind ++ Inline.text b.start (OpenBracket.mark b) :: b.before

/-- Take all open brackets for plain text. -/
def giveUpAll (behind : List Inline) : List OpenBracket → List Inline
  | [] => behind
  | b :: bs => giveUpAll (giveUp b behind) bs

/-- A line break in code is a blank, and one blank at either end is dropped unless all is blank. -/
def codeText (p : PlacedText) : Text :=
  let t := (PlacedText.text p).map fun c => if c = '\n' then ' ' else c
  if t.all (· == ' ') then t
  else if t.head? == some ' ' && t.getLast? == some ' ' then t.tail.dropLast
  else t

/-- The next run of as many backticks. -/
def closingTicks? (count : Nat) : List Token → Option Token
  | [] => none
  | t :: ts =>
    match t.kind with
    | .ticks n _ => if n = count then some t else closingTicks? count ts
    | _ => closingTicks? count ts

/-- A run of backticks, behind which `ts` come. -/
def ticks (t : Token) (count : Nat) (escaped : Bool) (ts : List Token) (s : Linking) : Linking :=
  let need := if escaped then count - 1 else count
  match if need = 0 then none else closingTicks? need ts with
  | none => s.addText t.start (List.replicate count '`')
  | some close =>
    let content := codeText (PlacedText.before close.start t.behind)
    let s := if escaped then s.addText t.start ['`'] else s
    let start := if escaped then t.start + 1 else t.start
    { s.add (.event start (.code content)) with covered := close.stop }

/-- A character of the name part of a mail address. -/
def isMailCharacter (c : Char) : Bool :=
  c.isAlphanum || ".!#$%&'*+/=?^_`\x7b|\x7d~-".toList.contains c

/-- A part of a domain: letters, digits and inner hyphens. -/
def isDomainLabel (t : Text) : Bool :=
  !t.isEmpty && t.length ≤ 63 && t.head? != some '-' && t.getLast? != some '-' &&
    t.all fun c => c.isAlphanum || c == '-'

def isMail (t : Text) : Bool :=
  let name := t.takeWhile isMailCharacter
  match t.drop name.length with
  | '@' :: domain => !name.isEmpty && (Text.splitOn '.' domain).all isDomainLabel
  | _ => false

/-- A scheme of two to 32 characters and a colon, without blanks and pointed brackets. -/
def isUri (t : Text) : Bool :=
  let scheme := t.takeWhile fun c => c.isAlphanum || c == '.' || c == '-' || c == '+'
  match t, t.drop scheme.length with
  | c :: _, ':' :: _ =>
    c.isAlpha && 2 ≤ scheme.length && scheme.length ≤ 32 &&
      t.all fun c => 0x20 < c.toNat && c != '<'
  | _, _ => false

/-- The address up to the next `>`. -/
def autolink? (t : Text) : Option Text :=
  let url := t.takeWhile (· != '>')
  match t.drop url.length with
  | [] => none
  | _ => if isUri url || isMail url then some url else none

/-- A pointed bracket. -/
def angle (t : Token) (s : Linking) : Linking :=
  let behind := PlacedText.text t.behind
  let stopAfter (n : Nat) : Nat := PlacedText.stopAfter t.stop n t.behind
  match autolink? behind with
  | some url =>
    let label := Inline.text (t.start + 1) url
    { s.add (.container t.start (.link .autolink url) [label]) with
      covered := stopAfter (url.length + 1) }
  | none =>
    match Html.inline? ('<' :: behind) with
    | some n => { s.add (.event t.start .html) with covered := stopAfter (n - 1) }
    | none => s.addText t.start ['<']

def isDollar (t : Token) : Bool :=
  match t.kind with
  | .dollar _ _ _ => true
  | _ => false

/-- The dollar sign that closes mathematics, or nothing when another one stands in it. -/
def closingDollar? (double : Bool) (nesting : Nat) : List Token → Option Nat
  | [] => none
  | t :: ts =>
    match t.kind with
    | .dollar _ closes n =>
      if n = nesting then
        let doubled := match ts with
          | u :: _ => isDollar u
          | [] => false
        if double then if doubled then some (t.stop + 1) else none
        else if closes then some t.stop else none
      else closingDollar? double nesting ts
    | _ => closingDollar? double nesting ts

/-- A dollar sign. -/
def dollar (t : Token) (opens : Bool) (nesting : Nat) (ts : List Token) (s : Linking) : Linking :=
  let (double, body) : Bool × List Token := match ts with
    | u :: rest => if isDollar u then (true, rest) else (false, ts)
    | [] => (false, ts)
  match if opens || double then closingDollar? double nesting body else none with
  | some stop => { s.add (.event t.start .math) with covered := stop }
  | none => s.addText t.start ['$']

/-- A link around which every bracket but those of images is dead. -/
def addLink (b : OpenBracket) (url : Text) (stop : Nat) (s : Linking) : Linking :=
  let tag : Tag := if b.image then .image url else .link .labelled url
  let children := Inline.resolve s.elements.reverse
  let kill (o : OpenBracket) : OpenBracket := if o.image then o else { o with dead := true }
  { s with
    elements := .container b.start tag children :: b.before
    brackets := if b.image then s.brackets else s.brackets.map kill
    covered := stop }

/-- A closing bracket without a link. -/
def plainClosing (t : Token) (b : OpenBracket) (s : Linking) : Linking :=
  { s with elements := Inline.text t.start [']'] :: giveUp b s.elements }

/-- A footnote reference. The brackets around it open nothing. -/
def addFootnote (b : OpenBracket) (s : Linking) : Linking :=
  let reference := Inline.event (if b.image then b.start + 1 else b.start) .footnoteReference
  let before := if b.image then Inline.text b.start ['!'] :: b.before else b.before
  { s with elements := giveUpAll (reference :: before) s.brackets, brackets := [] }

/-- What the closing bracket of a link is followed by. -/
inductive Reference where
  /-- A label of its own, which takes `length` characters. -/
  | full (name : Text) (length : Nat)
  /-- An empty pair of brackets. -/
  | collapsed
  | shortcut

/-- The bytes of the brackets behind a link that has no label but its own. -/
def Reference.length : Reference → Nat
  | full _ n => n
  | collapsed => 2
  | shortcut => 0

def reference (footnotes : Bool) (behind : Text) : Reference :=
  match behind with
  | '[' :: ']' :: _ => .collapsed
  | '[' :: rest =>
    match label? footnotes rest with
    | some (.link name, n) => .full name (n + 1)
    | _ => .shortcut
  | _ => .shortcut

/-- The label between an open bracket and the closing bracket of a token. -/
def ownLabel? (footnotes : Bool) (t : Token) (b : OpenBracket) : Option Label :=
  match label? footnotes (PlacedText.text b.behind) with
  | some (l, n) =>
    match b.behind.drop (n - 1) with
    | c :: _ => if c.2 = t.start then some l else none
    | [] => none
  | none => none

/-- A closing bracket that no target follows, of the open bracket `b`. -/
def closeByLabel (opts : Options) (labels : LabelTable) (t : Token) (b : OpenBracket)
    (s : Linking) : Linking :=
  let behind := PlacedText.text t.behind
  let stopAfter (n : Nat) : Nat := PlacedText.stopAfter t.stop n t.behind
  match reference opts.footnotes behind with
  | .full name n =>
    match labels.definitions.lookup name with
    | some url => s.addLink b url (stopAfter n)
    | none =>
      let last := (t.behind.drop (n - 1)).head?.map (·.2)
      { s.plainClosing t b with spent := last.toList ++ s.spent }
  | shape =>
    if s.spent.contains t.start then s.plainClosing t b
    else
      match ownLabel? opts.footnotes t b with
      | some (.footnote name) =>
        if labels.footnotes.contains name then s.addFootnote b else s.plainClosing t b
      | some (.link name) =>
        match labels.definitions.lookup name with
        | some url => s.addLink b url (t.stop + shape.length)
        | none => s.plainClosing t b
      | none => s.plainClosing t b

/-- A closing bracket. -/
def close (opts : Options) (labels : LabelTable) (t : Token) (s : Linking) : Linking :=
  match s.brackets with
  | [] => s.addText t.start [']']
  | b :: rest =>
    let s := { s with brackets := rest }
    if b.dead then s.plainClosing t b
    else
      match inlineTarget? (PlacedText.text t.behind) with
      | some (url, n) => s.addLink b url (PlacedText.stopAfter t.stop n t.behind)
      | none => s.closeByLabel opts labels t b

/-- Take in a token that is not covered, where `ts` come behind it. -/
def token (opts : Options) (labels : LabelTable) (t : Token) (ts : List Token) (s : Linking) :
    Linking :=
  match t.kind with
  | .text p => s.addText t.start (PlacedText.text p)
  | .glyphs cs => s.addText t.start cs
  | .run mark count opens closes => s.add (.run mark t.start count opens closes)
  | .ticks count escaped => s.ticks t count escaped ts
  | .quote mark opens closes => s.add (.quote mark t.start opens closes)
  | .dollar opens _ nesting => s.dollar t opens nesting ts
  | .angle => s.angle t
  | .bracket image =>
    { s with
      elements := []
      brackets := ⟨image, false, t.start, t.behind, s.elements⟩ :: s.brackets }
  | .closing => s.close opts labels t
  | .softBreak => s.add (.event t.start .softBreak)
  | .hardBreak => s.add (.event t.start .hardBreak)

/-- The part of a token behind the offset up to which the text is covered. -/
def uncovered? (covered : Nat) (t : Token) : Option Token :=
  if t.stop ≤ covered then none
  else
    match t.kind with
    | .text p =>
      let p := PlacedText.fromOffset covered p
      some { t with kind := .text p, start := max t.start covered }
    | _ => some { t with start := max t.start covered }

/-- Take in tokens from left to right. -/
def run (opts : Options) (labels : LabelTable) (s : Linking) : List Token → List Inline
  | [] => giveUpAll s.elements s.brackets
  | t :: ts =>
    match uncovered? s.covered t with
    | none => run opts labels s ts
    | some t => run opts labels (s.token opts labels t ts) ts

end Linking

/-- The inline elements of the text of a block. -/
def inlines (opts : Options) (labels : LabelTable) (p : PlacedText) : List Inline :=
  Inline.resolve (Linking.run opts labels {} (tokens opts p)).reverse

end ProseLint.Markdown
