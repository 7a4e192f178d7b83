import ProseLint.Sentence
import ProseLint.Sentence.Terminators

/-!
# Sentence extraction

Markup splits prose into pieces: a sentence may start in plain text, go on in emphasis and end
behind a link. A session takes the pieces one by one and stitches them into sentences. It holds the
finished sentences and at most one unfinished sentence.
-/
namespace ProseLint

/-- Finished sentences, the unfinished one, and whether the last span ended where a sentence did. -/
structure Session where
  finished : List Sentence := []
  unfinished : Option Sentence := none
  justClosed : Bool := false
  deriving DecidableEq, Repr

/-- The sentence that received the last piece of a span. -/
inductive Receiver where
  | nobody
  | unfinished
  | lastFinished
  deriving DecidableEq, Repr

namespace Session

/-- Change the last finished sentence. -/
def modifyLast (f : Sentence → Sentence) (ss : List Sentence) : List Sentence :=
  ss.modify (ss.length - 1) f

/-- Add a fragment to the unfinished sentence, or begin one with it; the second component tells
whether anything was added. A blank fragment begins nothing. -/
def merge (s : Session) (fragment : Text) (line : Nat) : Session × Bool :=
  match s.unfinished with
  | some u =>
    if fragment.isEmpty then (s, false)
    else ({ s with unfinished := some { u with content := u.content ++ fragment } }, true)
  | none =>
    let body := Text.trimStart fragment
    if body.isEmpty then (s, false)
    else ({ s with unfinished := some { content := body, line := line } }, true)

/-- Finish the unfinished sentence without the blanks at its end. -/
def close (s : Session) : Session :=
  match s.unfinished with
  | none => s
  | some u =>
    let body := Text.trimEnd u.content
    if body.isEmpty then { s with unfinished := none }
    else { s with finished := s.finished ++ [{ u with content := body }], unfinished := none }

/-- Take in the closed segments of a span, each of which ends a sentence. -/
def closeSegments (line : Nat) : Session → Receiver → List Text → Session × Receiver
  | s, who, [] => (s, who)
  | s, who, segment :: rest =>
    match s.merge segment line with
    | (s', true) => closeSegments line s'.close .lastFinished rest
    | (s', false) => closeSegments line s' who rest

/-- Whether the unfinished sentence holds a sentence end. -/
def isTerminated (T : Terminators) (s : Session) : Bool :=
  match s.unfinished with
  | none => false
  | some u => (T.firstEnd u.content).isSome

/-- Note a link at the sentence that received the text. -/
def attach (link : Option Text) (who : Receiver) (s : Session) : Session :=
  match link, who with
  | some url, .unfinished =>
    { s with unfinished := s.unfinished.map fun u => { u with links := u.links ++ [url] } }
  | some url, .lastFinished =>
    { s with finished := modifyLast (fun f => { f with links := f.links ++ [url] }) s.finished }
  | _, _ => s

/-- Take in the text of a span, its leading closers already handled. -/
def pushBody (T : Terminators) (s : Session) (line : Nat) (text : Text) (link : Option Text) :
    Session :=
  let parts := T.segments text
  let (s, who) := closeSegments line s .nobody parts.1
  let closed := parts.2.isEmpty && who == .lastFinished
  match s.merge parts.2 line with
  | (s, false) => attach link who { s with justClosed := closed }
  | (s, true) =>
    if s.isTerminated T then attach link .lastFinished { s.close with justClosed := true }
    else attach link .unfinished { s with justClosed := closed }

/-- Take in one span. Right behind a sentence end its leading closers go to the sentence that has
just been finished. -/
def push (T : Terminators) (s : Session) (span : Span) : Session :=
  if span.text.isEmpty then s
  else if s.justClosed then
    let closers := span.text.takeWhile isCloser
    let rest := span.text.dropWhile isCloser
    let finished := modifyLast (fun f => { f with content := f.content ++ closers }) s.finished
    let s := { s with finished := finished }
    if rest.isEmpty then s else s.pushBody T span.line rest span.link
  else s.pushBody T span.line span.text span.link

/-- Finish what is unfinished and hand over every finished sentence. -/
def flush (s : Session) : List Sentence × Session := (s.close.finished, {})

end Session

/-- The sentences of a sequence of spans. -/
def extract (T : Terminators) (spans : List Span) : List Sentence :=
  (spans.foldl (Session.push T) {}).flush.1

end ProseLint
