import ProseLint.Proofs.Document.Slots
import ProseLint.Proofs.Markup.Visit
import ProseLint.Proofs.Sentence.Links

/-!
# The acts of a visit

What the visit of a tree does with text and blocks, from left to right: it takes in leaves, opens
paragraphs and lists, and releases the text held back. Which sections and blocks the document has
follows from these acts and from where there is ink among the leaves.
-/
namespace ProseLint.Markup

/-- What a visit does. All acts but a leaf release the text held back. -/
inductive Act where
  | leaf (l : Leaf)
  /-- The text goes into the current paragraph. -/
  | flush
  /-- The same, and a paragraph is opened. -/
  | paragraph
  /-- The same, and a list is opened. -/
  | list
  /-- The text becomes a list element. -/
  | element
  /-- The text becomes the header of a new section. -/
  | header (level : ℕ)
  deriving DecidableEq, Repr

def Leaf.hasInk (l : Leaf) : Bool := !(Text.ink l.content).isEmpty

namespace Container

/-- The acts in front of what a container holds. -/
def actsBefore (inList : Bool) : Container → List Act
  | paragraph => if inList then [] else [.paragraph]
  | header _ => [if inList then .element else .flush]
  | bulletList | orderedList => [if inList then .element else .list]
  | root | listItem | quote | emphasis | link _ => []

/-- The acts behind what a container holds. -/
def actsBehind (inList : Bool) : Container → List Act
  | paragraph => if inList then [] else [.flush]
  | header level => [if inList then .element else .header level]
  | listItem => [.element]
  | root | bulletList | orderedList | quote | emphasis | link _ => []

end Container

namespace Node

mutual

def acts (inList : Bool) : Node → List Act
  | .leaf l => [.leaf l]
  | .container kind children => kind.actsBefore inList ++
      actsOfAll (inList || kind.isList) children ++ kind.actsBehind inList

def actsOfAll (inList : Bool) : List Node → List Act
  | [] => []
  | n :: ns => acts inList n ++ actsOfAll inList ns

end

/-- The acts of a whole compilation: what is left at the end is released, too. -/
def allActs (tree : Node) : List Act := tree.acts false ++ [.flush]

end Node

/-- Whether there is ink in the text held back, and the slots of the document. -/
structure Sketch where
  inked : Bool := false
  slots : List Slot := []

namespace Sketch

/-- The slots when the text has gone into the current paragraph. -/
def flushed (s : Sketch) : List Slot :=
  if s.inked then Slot.addSentence (Slot.start s.slots) else s.slots

def take (s : Sketch) : Act → Sketch
  | .leaf l => { s with inked := s.inked || l.hasInk }
  | .flush => { slots := s.flushed }
  | .paragraph => { slots := Slot.start s.flushed ++ [.blank] }
  | .list => { slots := Slot.start s.flushed ++ [.list] }
  | .element =>
    { slots := if s.inked then Slot.addElement (Slot.start s.slots) else s.slots }
  | .header level =>
    { slots := s.slots ++ [if level = 0 ∧ s.inked = false then .preamble else .headed] }

variable {s : Sketch}

theorem flushed_ne_nil (h : s.slots ≠ []) : s.flushed ≠ [] := by
  unfold flushed
  split
  · exact Slot.addSentence_ne_nil _
  · exact h

/-- Sections and blocks are never taken away. -/
theorem slots_take_ne_nil (h : s.slots ≠ []) (act : Act) : (s.take act).slots ≠ [] := by
  cases act with
  | leaf l => exact h
  | flush => exact flushed_ne_nil h
  | element =>
    rw [take]
    split
    · exact Slot.addElement_ne_nil _
    · exact h
  | paragraph => simp [take]
  | list => simp [take]
  | header level => simp [take]

theorem slots_foldl_take_ne_nil (h : s.slots ≠ []) (acts : List Act) :
    (acts.foldl take s).slots ≠ [] := by
  induction acts generalizing s with
  | nil => exact h
  | cons act acts ih => exact ih (slots_take_ne_nil h act)

end Sketch

namespace Compilation

variable {ctx : Context} {c c' : Compilation}

def sketch (c : Compilation) : Sketch :=
  ⟨!(Text.ink (c.held.flatMap (·.text))).isEmpty, c.document.slots⟩

/-- Sentences come from the text held back just when there is ink in it. -/
theorem not_inked_sketch (ctx : Context) (c : Compilation) :
    c.sketch.inked = false ↔ extract ctx.terminators c.held = [] := by
  simp [sketch, extract_eq_nil_iff]

theorem sketch_flush (c : Compilation) : (c.flush ctx).sketch = c.sketch.take .flush := by
  have hnone := not_inked_sketch ctx c
  unfold flush release build
  rw [Sketch.take, Sketch.flushed]
  cases hinked : c.sketch.inked with
  | false =>
    rw [hnone.mp hinked]
    rfl
  | true =>
    have hsome : extract ctx.terminators c.held ≠ [] := by simp [← hnone, hinked]
    exact congrArg (Sketch.mk false) (Document.slots_foldl_addSentence hsome _)

theorem slots_flush (ctx : Context) (c : Compilation) :
    (c.flush ctx).document.slots = c.sketch.flushed := congrArg Sketch.slots (sketch_flush c)

theorem sketch_addElement (hheld : c'.held = []) (hdocument : c'.document = c.document) :
    (c'.addElement (c.release ctx).1).sketch = c.sketch.take .element := by
  have hnone := not_inked_sketch ctx c
  unfold addElement
  rw [Sketch.take]
  cases hinked : c.sketch.inked with
  | false =>
    rw [if_pos (by simpa [release] using hnone.mp hinked), sketch, hheld, hdocument]
    rfl
  | true =>
    have hsome : extract ctx.terminators c.held ≠ [] := by simp [← hnone, hinked]
    rw [if_neg (by simpa [release] using hsome), sketch, build, hheld, hdocument]
    exact congrArg (Sketch.mk false) (Document.slots_addElement _ _ _)

theorem sketch_flushElement (c : Compilation) :
    (c.flushElement ctx).sketch = c.sketch.take .element := sketch_addElement rfl rfl

theorem sketch_keepHeader (c : Compilation) :
    (c.keepHeader ctx).sketch = c.sketch.take .element := by
  unfold keepHeader
  dsimp only
  split
  · rename_i hnone
    have hnone : extract ctx.terminators c.held = [] := List.head?_eq_none_iff.mp hnone
    have helement : ((c.release ctx).2.addElement (c.release ctx).1).sketch = _ :=
      sketch_addElement rfl rfl
    rwa [addElement, if_pos (by simpa [release] using hnone)] at helement
  · exact sketch_addElement rfl rfl

theorem sketch_addSection (c : Compilation) (level : ℕ) :
    ((c.release ctx).2.addSection level (c.release ctx).1).sketch =
      c.sketch.take (.header level) := by
  have hslots : ((c.release ctx).2.addSection level (c.release ctx).1).document.slots =
      (c.document.addSection level (extract ctx.terminators c.held)).slots := by
    obtain h | ⟨parent, h⟩ := document_addSection (c.release ctx).2 level (c.release ctx).1
    · rw [h]
      rfl
    · rw [h, Document.slots_attachChild]
      rfl
  rw [sketch, (frame_addSection _ _ _).1, hslots, Document.slots_addSection, Sketch.take]
  simp only [not_inked_sketch ctx]
  rfl

theorem sketch_openList (c : Compilation) : (c.openList ctx).sketch =
    c.sketch.take (if c.listDepth = 0 then .list else .element) := by
  unfold openList
  split
  · rw [Sketch.take, ← slots_flush ctx, ← Document.slots_addList]
    rfl
  · exact sketch_flushElement c

theorem sketch_link (c : Compilation) (url : Text) : (c.link url).sketch = c.sketch := by
  unfold link
  split
  · rename_i span hspan
    obtain ⟨init, hinit⟩ := List.getLast?_eq_some_iff.mp hspan
    simp [sketch, hinit]
  · rfl

theorem sketch_leaf (c : Compilation) (l : Leaf) :
    (visit ctx c (.leaf l)).sketch = c.sketch.take (.leaf l) := by
  obtain ⟨link, h⟩ | ⟨hempty, message, h⟩ := visit_leaf ctx c l
  · rw [h]
    have hinked : Text.ink ((c.hold ctx l.offset l.content link).held.flatMap (·.text)) =
        Text.ink (c.held.flatMap (·.text)) ++ Text.ink l.content := by
      simp [hold]
    rw [sketch, hinked]
    cases hheld : Text.ink (c.held.flatMap (·.text)) <;>
      simp [Sketch.take, sketch, Leaf.hasInk, hheld, hold]
  · rw [h]
    simp [sketch, note, Sketch.take, Leaf.hasInk, hempty]

theorem sketch_enter (c : Compilation) {inList : Bool} (hlist : inList = true ↔ c.listDepth ≠ 0)
    (kind : Container) :
    (enter ctx kind c).sketch = (kind.actsBefore inList).foldl Sketch.take c.sketch := by
  have hdepth : c.listDepth = 0 ↔ inList = false := by
    rw [← Bool.not_eq_true, hlist, not_not]
  cases kind with
  | paragraph =>
    simp only [enter, Container.actsBefore, hdepth]
    cases inList with
    | true => rfl
    | false =>
      simp only [if_true, Bool.false_eq_true, if_false, List.foldl_cons, List.foldl_nil]
      rw [Sketch.take, ← slots_flush ctx, ← Document.slots_addParagraph]
      rfl
  | header level =>
    simp only [enter, Container.actsBefore, hdepth]
    cases inList with
    | true => exact sketch_flushElement c
    | false => exact sketch_flush c
  | bulletList =>
    rw [enter, sketch_openList]
    cases inList <;> simp [Container.actsBefore, hdepth]
  | orderedList =>
    rw [enter, sketch_openList]
    cases inList <;> simp [Container.actsBefore, hdepth]
  | root => rfl
  | listItem => rfl
  | quote => rfl
  | emphasis => rfl
  | link url => rfl

/-- An indent needs a section to go to, and there is one: the paragraph was opened before. -/
theorem sketch_leave (c : Compilation) {inList : Bool} {depth : ℕ}
    (hlist : inList = true ↔ depth ≠ 0) (kind : Container)
    (hopened : kind = .paragraph → inList = false → c.sketch.slots ≠ []) :
    (leave ctx depth kind c).sketch = (kind.actsBehind inList).foldl Sketch.take c.sketch := by
  have hdepth : depth = 0 ↔ inList = false := by
    rw [← Bool.not_eq_true, hlist, not_not]
  cases kind with
  | paragraph =>
    simp only [leave, Container.actsBehind, hdepth]
    cases inList with
    | true => rfl
    | false =>
      have hsections : (c.flush ctx).sketch.slots ≠ [] := by
        rw [sketch_flush]
        exact Sketch.slots_take_ne_nil (hopened rfl rfl) .flush
      have hindent : ((c.flush ctx).build (Document.setIndent c.heldIndent)).sketch =
          (c.flush ctx).sketch := by
        exact congrArg (Sketch.mk _) ((Document.slots_setIndent _ _).trans
          (Slot.start_of_ne_nil hsections))
      simp only [if_true, Bool.false_eq_true, if_false, List.foldl_cons, List.foldl_nil,
        ← @sketch_flush ctx]
      split
      · rfl
      · exact hindent
  | header level =>
    simp only [leave, Container.actsBehind, hdepth]
    cases inList with
    | true => exact sketch_keepHeader c
    | false => exact sketch_addSection c level
  | listItem => exact sketch_flushElement c
  | link url => exact sketch_link c url
  | root => rfl
  | bulletList => rfl
  | orderedList => rfl
  | quote => rfl
  | emphasis => rfl

mutual

/-- A visit does the acts of a node one after another. -/
theorem sketch_visit (c : Compilation) {inList : Bool} (hlist : inList = true ↔ c.listDepth ≠ 0) :
    (n : Node) → (visit ctx c n).sketch = (n.acts inList).foldl Sketch.take c.sketch
  | .leaf l => by
    rw [sketch_leaf, Node.acts]
    rfl
  | .container kind children => by
    have hinside : (inList || kind.isList) = true ↔ (enter ctx kind c).listDepth ≠ 0 := by
      rw [listDepth_enter]
      cases kind.isList <;> simp [hlist]
    have hchildren := sketch_visitAll (enter ctx kind c) hinside children
    rw [sketch_enter c hlist kind] at hchildren
    have hopened : kind = .paragraph → inList = false →
        (visitAll ctx (enter ctx kind c) children).sketch.slots ≠ [] := by
      rintro rfl rfl
      rw [hchildren]
      exact Sketch.slots_foldl_take_ne_nil (by simp [Container.actsBefore, Sketch.take]) _
    rw [visit_container, sketch_leave _ hlist kind hopened, hchildren, Node.acts,
      List.foldl_append, List.foldl_append]

theorem sketch_visitAll (c : Compilation) {inList : Bool}
    (hlist : inList = true ↔ c.listDepth ≠ 0) : (ns : List Node) →
    (visitAll ctx c ns).sketch = (Node.actsOfAll inList ns).foldl Sketch.take c.sketch
  | [] => by rw [visitAll, Node.actsOfAll, List.foldl_nil]
  | n :: ns => by
    have hrest : inList = true ↔ (visit ctx c n).listDepth ≠ 0 := by rwa [listDepth_visit]
    rw [visitAll, sketch_visitAll _ hrest ns, sketch_visit c hlist n, Node.actsOfAll,
      List.foldl_append]

end

end Compilation

/-- The sections and blocks of a compiled document are those that the acts of the tree leave. -/
theorem slots_compile (ctx : Context) (name : Text) (tree : Node) :
    (compile ctx name tree).1.slots = (tree.allActs.foldl Sketch.take {}).slots := by
  have hvisit := @Compilation.sketch_visit ctx { document := { name := name } } false (by simp) tree
  have hflush := @Compilation.sketch_flush ctx
    (Compilation.visit ctx { document := { name := name } } tree)
  rw [hvisit] at hflush
  rw [Node.allActs, List.foldl_append]
  exact congrArg Sketch.slots hflush

end ProseLint.Markup
