/-!
# Markdown options

Which parts of the syntax beyond the common core are read. By default all of them are but
mathematics and task lists.
-/
namespace ProseLint.Markdown

structure Options where
  tables : Bool := false
  footnotes : Bool := false
  strikethrough : Bool := false
  smart : Bool := false
  definitionLists : Bool := false
  metadata : Bool := false
  math : Bool := false
  taskLists : Bool := false
  deriving DecidableEq, Repr

/-- The parts that documents are read with. -/
def Options.standard : Options where
  tables := true
  footnotes := true
  strikethrough := true
  smart := true
  definitionLists := true
  metadata := true

end ProseLint.Markdown
