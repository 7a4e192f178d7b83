import ProseLint.Markup.Plain
import ProseLint.Markup.Wiki
import ProseLint.Proofs.Markup.Visit

/-!
# Offsets in a markup tree

Of the offsets in a tree a document shows nothing but the lines on which they stand. So two trees
that differ in their offsets only, and have the same lines there, are compiled into the same
document. The readers look at the text of each line and copy its offset: from lines with the same
texts they read trees that differ in their offsets only.
-/
namespace ProseLint.Markup

/-- A leaf with its offset mapped. -/
def Leaf.mapOffset (f : ℕ → ℕ) : Leaf → Leaf
  | text offset t => .text (f offset) t
  | code offset t => .code (f offset) t
  | autolink offset url => .autolink (f offset) url
  | special offset kind => .special (f offset) kind
  | omitted kind => .omitted kind

namespace Node

mutual

/-- A tree with all its offsets mapped. -/
def mapOffset (f : ℕ → ℕ) : Node → Node
  | .leaf l => .leaf (l.mapOffset f)
  | .container kind children => .container kind (mapOffsetAll f children)

def mapOffsetAll (f : ℕ → ℕ) : List Node → List Node
  | [] => []
  | n :: ns => mapOffset f n :: mapOffsetAll f ns

end

@[simp] theorem mapOffsetAll_eq (f : ℕ → ℕ) (ns : List Node) :
    mapOffsetAll f ns = ns.map (mapOffset f) := by
  induction ns with
  | nil => rfl
  | cons n ns ih => rw [mapOffsetAll, ih, List.map_cons]

@[simp] theorem mapOffset_container (f : ℕ → ℕ) (kind : Container) (children : List Node) :
    (container kind children).mapOffset f = .container kind (children.map (mapOffset f)) := by
  rw [mapOffset, mapOffsetAll_eq]

@[simp] theorem mapOffset_leaf (f : ℕ → ℕ) (l : Leaf) :
    (leaf l).mapOffset f = .leaf (l.mapOffset f) := by
  rw [mapOffset]

@[simp] theorem mapOffset_text (f : ℕ → ℕ) (offset : ℕ) (t : Text) :
    (text offset t).mapOffset f = text (f offset) t := by
  rw [text, mapOffset_leaf, Leaf.mapOffset, text]

end Node

namespace Compilation

variable {lines lines' : LineTable} {T : Terminators}

theorem enter_congr (lines lines' : LineTable) (T : Terminators) (kind : Container)
    (c : Compilation) : enter ⟨lines, T⟩ kind c = enter ⟨lines', T⟩ kind c := by
  cases kind <;> rfl

theorem leave_congr (lines lines' : LineTable) (T : Terminators) (depth : ℕ) (kind : Container)
    (c : Compilation) : leave ⟨lines, T⟩ depth kind c = leave ⟨lines', T⟩ depth kind c := by
  cases kind <;> rfl

mutual

/-- The visit of a node shows the lines of its offsets only. -/
theorem visit_congr (c : Compilation) : (n n' : Node) →
    n.mapOffset lines.lineNumber = n'.mapOffset lines'.lineNumber →
      visit ⟨lines, T⟩ c n = visit ⟨lines', T⟩ c n'
  | .leaf l, .leaf l', h => by
    cases l <;> cases l' <;> simp_all [Leaf.mapOffset, visit, hold]
  | .leaf _, .container _ _, h => by simp at h
  | .container _ _, .leaf _, h => by simp at h
  | .container kind children, .container kind' children', h => by
    rw [Node.mapOffset, Node.mapOffset, Node.container.injEq] at h
    obtain ⟨rfl, hchildren⟩ := h
    rw [visit_container, visit_container, enter_congr lines lines',
      visitAll_congr _ children children' hchildren, leave_congr lines lines']

theorem visitAll_congr (c : Compilation) : (ns ns' : List Node) →
    Node.mapOffsetAll lines.lineNumber ns = Node.mapOffsetAll lines'.lineNumber ns' →
      visitAll ⟨lines, T⟩ c ns = visitAll ⟨lines', T⟩ c ns'
  | [], [], _ => by rw [visitAll, visitAll]
  | [], _ :: _, h => by simp at h
  | _ :: _, [], h => by simp at h
  | n :: ns, n' :: ns', h => by
    rw [Node.mapOffsetAll, Node.mapOffsetAll, List.cons.injEq] at h
    rw [visitAll, visitAll, visit_congr c n n' h.1, visitAll_congr _ ns ns' h.2]

end

end Compilation

/-- Of the offsets of a tree its document shows the lines only. -/
theorem compile_congr {lines lines' : LineTable} {tree tree' : Node}
    (h : tree.mapOffset lines.lineNumber = tree'.mapOffset lines'.lineNumber) (T : Terminators)
    (name : Text) : compile ⟨lines, T⟩ name tree = compile ⟨lines', T⟩ name tree' := by
  have hvisit := Compilation.visit_congr (T := T) { document := { name := name } } tree tree' h
  simp only [compile]
  rw [hvisit]
  rfl

end ProseLint.Markup
