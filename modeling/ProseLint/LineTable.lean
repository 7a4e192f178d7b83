import ProseLint.Text

/-!
# Line numbers of byte offsets

A line table holds the byte offset at which each line ends, its line feed included. The line of an
offset is found by bisection: the first line that ends behind the offset.
-/
namespace ProseLint

/-- The end offsets of the lines, in increasing order. -/
structure LineTable where
  ends : Array Nat
  deriving DecidableEq, Repr

namespace LineTable

/-- The end offsets of lines of which the first starts at `start`. -/
def endsFrom (start : Nat) : List Text → List Nat
  | [] => []
  | l :: ls => (start + Text.byteLength l) :: endsFrom (start + Text.byteLength l) ls

def ofText (t : Text) : LineTable := ⟨(endsFrom 0 (Text.lines t)).toArray⟩

def lineCount (table : LineTable) : Nat := table.ends.size

/-- Whether the line with this index ends at the offset or before it. -/
def endsBy (table : LineTable) (offset i : Nat) : Bool := table.ends.getD i 0 ≤ offset

/-- Halve the `size` candidates that start at `base` until one is left. -/
def bisect (table : LineTable) (offset base size : Nat) : Nat :=
  if h : size ≤ 1 then base
  else
    let middle := base + size / 2
    table.bisect offset (if table.endsBy offset middle then middle else base) (size - size / 2)
termination_by size
decreasing_by omega

/-- The index, from 0, of the first line that ends behind the offset. -/
def lineIndex (table : LineTable) (offset : Nat) : Nat :=
  if table.ends.isEmpty then 0
  else
    let i := table.bisect offset 0 table.ends.size
    if table.endsBy offset i then i + 1 else i

/-- The line of an offset, counted from 1. -/
def lineNumber (table : LineTable) (offset : Nat) : Nat := table.lineIndex offset + 1

end LineTable

end ProseLint
