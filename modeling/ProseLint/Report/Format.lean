import ProseLint.Finding
import ProseLint.Report.Json

/-!
# Report formats

A report is a header line, the findings, each on a line of its own, and a footer line. A format
says how a finding is written, what the header and the footer are, and what parts two findings.
-/
namespace ProseLint.Report

inductive Format where
  | plain
  | xml
  | json
  deriving DecidableEq, Repr

namespace Format

def name : Format → Text
  | plain => "plain".toList
  | xml => "xml".toList
  | json => "json".toList

/-- The format of a name, in capital or small letters; the reason when there is none. -/
def ofName (t : Text) : Except Text Format :=
  let small := Text.asciiLower t
  if small = "plain".toList ∨ small = "text".toList then .ok plain
  else if small = "xml".toList then .ok xml
  else if small = "json".toList then .ok json
  else .error ("unknown result format '".toList ++ small ++ ['\''])

def header? : Format → Option Text
  | plain => none
  | xml => some "<validation-result>".toList
  | json => some ['[']

def footer? : Format → Option Text
  | plain => none
  | xml => some "</validation-result>".toList
  | json => some [']']

def separator? : Format → Option Text
  | json => some [',']
  | _ => none

end Format

/-- The rule, the file if it is known, the line and the message, then the sentence. -/
def plainEntry (f : Finding) : Text :=
  "ValidationError[".toList ++ f.validator ++ "][".toList ++
    (if f.fileName.isEmpty then [] else f.fileName ++ " : ".toList) ++
    Text.ofNat f.line ++ " (".toList ++ f.message ++ ")]".toList ++
    match f.sentence with
    | some s => " at line: ".toList ++ s.content
    | none => []

/-- The three characters that have a meaning of their own in XML text are named. -/
def escapeXml (c : Char) : Text :=
  if c = '&' then "&amp;".toList
  else if c = '<' then "&lt;".toList
  else if c = '>' then "&gt;".toList
  else [c]

def xmlElement (name : String) (t : Text) : Text :=
  ['<'] ++ name.toList ++ ['>'] ++ t.flatMap escapeXml ++ "</".toList ++ name.toList ++ ['>']

/-- An element that is left out when its text is empty. -/
def xmlElement? (name : String) (t : Text) : Text := if t.isEmpty then [] else xmlElement name t

def xmlEntry (f : Finding) : Text :=
  "<error>".toList ++ xmlElement "validator" f.validator ++ xmlElement? "message" f.message ++
    xmlElement? "file" f.fileName ++ xmlElement "lineNum" (Text.ofNat f.line) ++
    xmlElement? "sentence" ((f.sentence.map (·.content)).getD []) ++ "</error>".toList

def jsonSentence (s : Sentence) : Text :=
  Json.object
    [("content", Json.string s.content), ("line", Json.number s.line),
      ("is_first_sentence", Json.boolean s.isFirst),
      ("links", Json.array (s.links.map Json.string))]

/-- One object; a file or sentence that is not there has no field. -/
def jsonEntry (f : Finding) : Text :=
  let file := match f.file with
    | some name => [("file", Json.string name)]
    | none => []
  let sentence := match f.sentence with
    | some s => [("sentence", jsonSentence s)]
    | none => []
  Json.object
    ([("validator", Json.string f.validator), ("message", Json.string f.message)] ++ file ++
      [("line", Json.number f.line)] ++ sentence)

/-- The text of a finding in a format. -/
def entry : Format → Finding → Text
  | .plain => plainEntry
  | .xml => xmlEntry
  | .json => jsonEntry

end ProseLint.Report
