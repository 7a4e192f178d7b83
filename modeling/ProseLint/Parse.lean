import ProseLint.InputFormat
import ProseLint.Markdown.Read
import ProseLint.Markup.Compile
import ProseLint.Markup.Plain
import ProseLint.Markup.Wiki

/-!
# Parsing documents

A source is read into a markup tree by the reader of its format, and the tree is compiled into a
document. The remarks on the way are diagnostics, and what happened is logged.
-/
namespace ProseLint

/-- Why an input gives no document. -/
inductive ParseError where
  | unreadable (path reason : Text)
  | invalidEncoding (path : Text)
  | malformed (reason : Text)
  deriving DecidableEq, Repr

namespace ParseError

def message : ParseError → Text
  | unreadable path reason => "failed to read ".toList ++ path ++ ": ".toList ++ reason
  | invalidEncoding path => path ++ " is not valid UTF-8".toList
  | malformed reason => "malformed input: ".toList ++ reason

end ParseError

/-- A document with the remarks on it. -/
structure Parsed where
  document : Document
  diagnostics : List Diagnostic

namespace Parse

open Markup (Node)

/-- The markup tree of a source. -/
def tree (format : InputFormat) (source : Text) : Except ParseError Node :=
  match format with
  | .wiki => .ok (Markup.Wiki.read source)
  | .plain => .ok (Markup.Plain.read source)
  | .markdown =>
    match Markdown.read Markdown.Options.standard source with
    | .ok n => .ok n
    | .error offset =>
      .error (.malformed ("unbalanced end tag at byte ".toList ++ Text.ofNat offset))

/-- The document of a source. -/
def source (format : InputFormat) (terminators : Terminators) (name : Text) (text : Text) :
    Except ParseError Parsed :=
  match tree format text with
  | .error e => .error e
  | .ok n =>
    let (document, diagnostics) := Markup.compile ⟨LineTable.ofText text, terminators⟩ name n
    .ok ⟨document, diagnostics⟩

/-- What is logged when a source has been parsed: its remarks, under the name `origin`, and a line
on the whole. -/
def log (origin : Text) (format : InputFormat) (text : Text) (p : Parsed) : List LogLine :=
  p.diagnostics.map (Diagnostic.logLine origin) ++
    [.debug ("Parsed ".toList ++ format.name ++ " document '".toList ++ p.document.name ++
      "' (".toList ++ Text.ofNat (Text.byteLength text) ++ " chars, ".toList ++
      Text.ofNat p.document.sections.length ++ " sections)".toList)]

/-- The document of a file, which is named after the path, and what is logged. -/
def file (format : InputFormat) (terminators : Terminators) (origin path : Text)
    (contents : File.Contents) : Except ParseError Parsed × List LogLine :=
  match contents with
  | .error reason => (.error (.unreadable path reason), [])
  | .ok bytes =>
    match File.decode? bytes with
    | none => (.error (.invalidEncoding path), [])
    | some text =>
      match source format terminators path text with
      | .error e => (.error e, [])
      | .ok p => (.ok p, log origin format text p)

end Parse

end ProseLint
