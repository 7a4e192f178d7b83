import ProseLint.Proofs.Document.Lists
import ProseLint.Proofs.Markup.Visit

/-!
# From list items to list elements

An item of a list is inline text, and behind it there may be lists. Before a list is opened, and
when an item ends, the text held back becomes an element of the depth that the lists have there. So
the elements of nested lists come in the order of the text, each with its own depth.
-/
namespace ProseLint.Markup
namespace Compilation

variable {ctx : Context} {c c' : Compilation}

theorem visitAll_append (c : Compilation) (ns ns' : List Node) :
    visitAll ctx c (ns ++ ns') = visitAll ctx (visitAll ctx c ns) ns' := by
  induction ns generalizing c with
  | nil => rw [List.nil_append, visitAll]
  | cons n ns ih => rw [List.cons_append, visitAll, ih, visitAll]

theorem document_link (c : Compilation) (url : Text) : (c.link url).document = c.document := by
  unfold link
  split <;> rfl

theorem held_link (h : c.held = c'.held) (url : Text) : (c.link url).held = (c'.link url).held := by
  unfold link
  rw [h]
  split
  · rfl
  · exact h

mutual

/-- What an inline node adds to the text held back depends on nothing else. -/
theorem visit_inline {c c' : Compilation} (h : c.held = c'.held) : (n : Node) →
    n.isInline = true → (visit ctx c n).held = (visit ctx c' n).held ∧
      (visit ctx c n).document = c.document
  | .leaf l, _ => by cases l <;> simp [visit, hold, note, h]
  | .container .emphasis children, hn => by
    rw [Node.isInline] at hn
    rw [visit, visit]
    exact visitAll_inline h children hn
  | .container (.link url) children, hn => by
    rw [Node.isInline] at hn
    obtain ⟨hheld, hdocument⟩ := visitAll_inline h children hn
    rw [visit, visit]
    exact ⟨held_link hheld url, (document_link _ url).trans hdocument⟩

theorem visitAll_inline {c c' : Compilation} (h : c.held = c'.held) : (ns : List Node) →
    Node.allInline ns = true → (visitAll ctx c ns).held = (visitAll ctx c' ns).held ∧
      (visitAll ctx c ns).document = c.document
  | [], _ => by
    rw [visitAll, visitAll]
    exact ⟨h, rfl⟩
  | n :: ns, hns => by
    rw [Node.allInline, Bool.and_eq_true] at hns
    obtain ⟨hfirst, hdocument⟩ := visit_inline h n hns.1
    obtain ⟨hrest, hdocument'⟩ := visitAll_inline hfirst ns hns.2
    rw [visitAll, visitAll]
    exact ⟨hrest, hdocument'.trans hdocument⟩

end

/-- The text of inline nodes, as it is held back. -/
def spansOf (ctx : Context) (ns : List Node) : List Span :=
  (visitAll ctx { document := { name := [] } } ns).held

/-- The list element of inline nodes, unless there is no sentence in them. -/
def element? (ctx : Context) (level : ℕ) (ns : List Node) : Option ListElement :=
  let ss := extract ctx.terminators (spansOf ctx ns)
  if ss.isEmpty then none else some ⟨level, ss⟩

/-- Elements have been added, and nothing is left to add. -/
structure Adds (c c' : Compilation) (es : List ListElement) : Prop where
  document_eq : c'.document = c.document.addElements es
  held_eq : c'.held = []
  listDepth_eq : c'.listDepth = c.listDepth

theorem Adds.refl (h : c.held = []) : Adds c c [] := ⟨rfl, h, rfl⟩

theorem Adds.trans {c'' : Compilation} {es es' : List ListElement} (h : Adds c c' es)
    (h' : Adds c' c'' es') : Adds c c'' (es ++ es') := by
  refine ⟨?_, h'.held_eq, h'.listDepth_eq.trans h.listDepth_eq⟩
  rw [h'.document_eq, h.document_eq, Document.addElements, Document.addElements,
    Document.addElements, List.foldl_append]

/-- An item of inline nodes is an element of the depth. -/
theorem adds_item (hheld : c.held = []) {ns : List Node} (hns : Node.allInline ns = true) :
    Adds c (visit ctx c (.container .listItem ns)) (element? ctx c.listDepth ns).toList := by
  have hempty : c.held = Compilation.held { document := { name := [] } } := hheld
  obtain ⟨hspans, hdocument⟩ := @visitAll_inline ctx _ _ hempty ns hns
  have hspans : (visitAll ctx c ns).held = spansOf ctx ns := hspans
  have hdepth : (visitAll ctx c ns).listDepth = c.listDepth := listDepth_visitAll c ns
  rw [visit]
  refine ⟨?_, held_flushElement _, (listDepth_flushElement _).trans hdepth⟩
  unfold flushElement release element? addElement
  dsimp only
  rw [hspans]
  split
  · exact hdocument
  · rw [build, hdocument, hdepth]
    rfl

/-- The items of a list of a depth give elements, whatever stands before them. -/
def Yields (ctx : Context) (depth : ℕ) (items : List (List Node)) (es : List ListElement) : Prop :=
  ∀ c : Compilation, c.held = [] → c.listDepth = depth →
    Adds c (visitAll ctx c (items.map (.container .listItem))) es

theorem yields_nil (depth : ℕ) : Yields ctx depth [] [] := by
  intro c hheld hdepth
  rw [List.map_nil, visitAll]
  exact .refl hheld

theorem Yields.concat {depth : ℕ} {items : List (List Node)} {es : List ListElement}
    (h : Yields ctx depth items es) {ns : List Node} (hns : Node.allInline ns = true) :
    Yields ctx depth (items ++ [ns]) (es ++ (element? ctx depth ns).toList) := by
  intro c hheld hdepth
  have hitems := h c hheld hdepth
  rw [List.map_append, visitAll_append, List.map_singleton, visitAll, visitAll]
  have hitem := @adds_item ctx _ hitems.held_eq ns hns
  rw [hitems.listDepth_eq, hdepth] at hitem
  exact hitems.trans hitem

theorem visit_list {kind : Container} (hkind : kind.isList = true) (c : Compilation)
    (children : List Node) : visit ctx c (.container kind children) =
      (visitAll ctx (c.openList ctx) children).closeList := by
  cases kind with
  | bulletList => rw [visit]
  | orderedList => rw [visit]
  | _ => simp [Container.isList] at hkind

/-- A list inside another ends the element before it. -/
theorem visit_inner_list {kind : Container} (hkind : kind.isList = true) (hdepth : c.listDepth ≠ 0)
    (children : List Node) : visit ctx c (.container kind children) =
      visit ctx (c.flushElement ctx) (.container kind children) := by
  have hflush : (c.flushElement ctx).flushElement ctx = c.flushElement ctx :=
    flushElement_of_held_nil (held_flushElement c)
  have hopen : (c.flushElement ctx).openList ctx = c.openList ctx := by
    unfold openList
    rw [listDepth_flushElement, if_neg hdepth, if_neg hdepth, hflush]
  rw [visit_list hkind, visit_list hkind, hopen]

theorem Yields.inner {depth : ℕ} {items : List (List Node)} {es : List ListElement}
    (h : Yields ctx (depth + 1) items es) {kind : Container} (hkind : kind.isList = true)
    (hheld : c.held = []) (hdepth : c.listDepth = depth) (hpos : 0 < depth) :
    Adds c (visit ctx c (.container kind (items.map (.container .listItem)))) es := by
  have hopen : c.openList ctx = { c with listDepth := c.listDepth + 1 } := by
    unfold openList
    rw [if_neg (by omega), flushElement_of_held_nil hheld]
  have hitems := h { c with listDepth := c.listDepth + 1 } hheld (congrArg (· + 1) hdepth)
  rw [visit_list hkind, hopen]
  exact ⟨hitems.document_eq, hitems.held_eq, congrArg (· - 1) hitems.listDepth_eq⟩

/-- Blocks add these lists to a document. -/
def ListsOf (ctx : Context) (ns : List Node) (ls : List (List ListElement)) : Prop :=
  ∀ c : Compilation, c.Idle → (visitAll ctx c ns).Idle ∧
    (visitAll ctx c ns).document.lists = c.document.lists ++ ls

theorem listsOf_nil : ListsOf ctx [] [] := by
  intro c hc
  rw [visitAll, List.append_nil]
  exact ⟨hc, rfl⟩

theorem ListsOf.append {ns ns' : List Node} {ls ls' : List (List ListElement)}
    (h : ListsOf ctx ns ls) (h' : ListsOf ctx ns' ls') : ListsOf ctx (ns ++ ns') (ls ++ ls') := by
  intro c hc
  obtain ⟨hidle, hlists⟩ := h c hc
  obtain ⟨hidle', hlists'⟩ := h' _ hidle
  rw [visitAll_append]
  exact ⟨hidle', by rw [hlists', hlists, List.append_assoc]⟩

theorem listsOf_omitted (kind : OmittedKind) : ListsOf ctx [.leaf (.omitted kind)] [] := by
  intro c hc
  rw [visitAll, visitAll, visit, List.append_nil]
  exact ⟨⟨hc.held, hc.listDepth⟩, rfl⟩

theorem listsOf_paragraph {ns : List Node} (hns : Node.allInline ns = true) :
    ListsOf ctx [.container .paragraph ns] [] := by
  intro c hc
  have hflush : ∀ c : Compilation, (c.flush ctx).document.lists = c.document.lists := fun c =>
    Document.lists_foldl_addSentence _ _
  have hdocument := (@visitAll_inline ctx (c.build Document.addParagraph) _ rfl ns hns).2
  have hdepth := @listDepth_visitAll ctx (c.build Document.addParagraph) ns
  have hlists : (visitAll ctx (c.build Document.addParagraph) ns).document.lists =
      c.document.lists := by
    rw [hdocument]
    exact Document.lists_addParagraph c.document
  rw [visitAll, visitAll, visit, if_pos hc.listDepth, flush_of_held_nil hc.held, List.append_nil]
  dsimp only
  split
  · exact ⟨⟨rfl, hdepth.trans hc.listDepth⟩, (hflush _).trans hlists⟩
  · exact ⟨⟨rfl, hdepth.trans hc.listDepth⟩,
      (Document.lists_setIndent _ _).trans ((hflush _).trans hlists)⟩

theorem listsOf_header (level : ℕ) {ns : List Node} (hns : Node.allInline ns = true) :
    ListsOf ctx [.container (.header level) ns] [] := by
  intro c hc
  have hdocument := (@visitAll_inline ctx c _ rfl ns hns).2
  have hdepth := @listDepth_visitAll ctx c ns
  rw [visitAll, visitAll, visit, if_pos hc.listDepth, flush_of_held_nil hc.held, List.append_nil]
  dsimp only
  obtain ⟨hheld, hdepth'⟩ := frame_addSection ((visitAll ctx c ns).release ctx).2 level
    ((visitAll ctx c ns).release ctx).1
  refine ⟨⟨hheld, hdepth'.trans (hdepth.trans hc.listDepth)⟩, ?_⟩
  obtain h | ⟨parent, h⟩ := document_addSection ((visitAll ctx c ns).release ctx).2 level
    ((visitAll ctx c ns).release ctx).1
  · rw [h]
    exact (Document.lists_addSection _ _ _).trans (congrArg Document.lists hdocument)
  · rw [h, Document.lists_attachChild, Document.lists_addSection]
    exact congrArg Document.lists hdocument

/-- An outermost list. -/
theorem Yields.listsOf {items : List (List Node)} {es : List ListElement}
    (h : Yields ctx 1 items es) {kind : Container} (hkind : kind.isList = true) :
    ListsOf ctx [.container kind (items.map (.container .listItem))] [es] := by
  intro c hc
  have hopen : c.openList ctx = { c.build Document.addList with listDepth := 1 } := by
    unfold openList
    rw [if_pos hc.listDepth, flush_of_held_nil hc.held]
    exact congrArg (Compilation.mk _ _ _ <| · + 1) hc.listDepth
  have hitems := h { c.build Document.addList with listDepth := 1 } hc.held rfl
  rw [visitAll, visitAll, visit_list hkind, hopen]
  refine ⟨⟨hitems.held_eq, congrArg (· - 1) hitems.listDepth_eq⟩, ?_⟩
  exact (congrArg Document.lists hitems.document_eq).trans
    (Document.lists_addElements_addList es c.document)

/-- The lists of a compiled document are those that the blocks add. -/
theorem lists_compile (name : Text) {ns : List Node} {ls : List (List ListElement)}
    (h : ListsOf ctx ns ls) : (compile ctx name (.container .root ns)).1.lists = ls := by
  obtain ⟨hidle, hlists⟩ := h { document := { name := name } } ⟨rfl, rfl⟩
  rw [compile, visit, flush_of_held_nil hidle.held]
  exact hlists

end Compilation
end ProseLint.Markup
