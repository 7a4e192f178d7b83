import ProseLint.Text

/-!
# Files

What reading a file gives is data: its bytes, or the reason why they could not be had. A path is a
text with `/` between its components.
-/
namespace ProseLint.File

/-- The bytes of a file, or why it could not be read. -/
abbrev Contents := Except Text ByteArray

/-- What reading gives at each path. -/
abbrev Lookup := Text → Contents

/-- The text of bytes in UTF-8. -/
def decode? (bytes : ByteArray) : Option Text := (String.fromUTF8? bytes).map String.toList

/-- The text of a file that must be UTF-8, or why there is none. -/
def text (contents : Contents) : Except Text Text :=
  match contents with
  | .error reason => .error reason
  | .ok bytes =>
    match decode? bytes with
    | some t => .ok t
    | none => .error "stream did not contain valid UTF-8".toList

/-- The last component of a path, empty ones and single dots not counted; nothing when there is
none or when it leads upward. -/
def fileName? (path : Text) : Option Text :=
  match ((Text.splitOn '/' path).filter fun c => !c.isEmpty && c != ['.']).getLast? with
  | none => none
  | some name => if name = ['.', '.'] then none else some name

/-- What stands behind the last dot of the file name, unless that dot comes first. -/
def extension? (path : Text) : Option Text :=
  match fileName? path with
  | none => none
  | some name =>
    let parts := Text.splitOn '.' name
    match parts.dropLast, parts.getLast? with
    | [], _ => none
    | [[]], _ => none
    | _, last => last

end ProseLint.File
