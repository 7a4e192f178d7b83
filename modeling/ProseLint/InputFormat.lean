import ProseLint.File

/-!
# Input formats

A document is written in Markdown, in the wiki dialect or as plain text. The format is named by the
caller or told from the extension of the file.
-/
namespace ProseLint

inductive InputFormat where
  | markdown
  | wiki
  | plain
  deriving DecidableEq, Repr

namespace InputFormat

def name : InputFormat → Text
  | markdown => "markdown".toList
  | wiki => "wiki".toList
  | plain => "plain".toList

/-- The format of a name, in capital or small letters; the reason when there is none. -/
def ofName (t : Text) : Except Text InputFormat :=
  let small := Text.asciiLower t
  if small = "markdown".toList ∨ small = "md".toList then .ok markdown
  else if small = "wiki".toList then .ok wiki
  else if small = "plain".toList ∨ small = "text".toList then .ok plain
  else .error ("unknown input format '".toList ++ small ++ ['\''])

/-- The format that a file extension stands for. -/
def ofExtension? (t : Text) : Option InputFormat :=
  let small := Text.asciiLower t
  if small = "md".toList ∨ small = "markdown".toList then some markdown
  else if small = "wiki".toList then some wiki
  else if small = "txt".toList ∨ small = "text".toList then some plain
  else none

/-- The format of a file, told from its extension. -/
def ofPath? (path : Text) : Option InputFormat := (File.extension? path).bind ofExtension?

end InputFormat

end ProseLint
