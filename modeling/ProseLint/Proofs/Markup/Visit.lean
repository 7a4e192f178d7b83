import ProseLint.Proofs.Markup.Preservation
import ProseLint.Proofs.Markup.Trail

/-!
# Visits of containers

The visit of a container is the visit of its children with something done before them and something
behind them. Where a container has a boundary, all text held back becomes sentences; where it has
none, the text stays as it is. The lists that a visit opens are closed again.
-/
namespace ProseLint.Markup

namespace Compilation

variable {ctx : Context}

/-- What a visit does in front of the children of a container. -/
def enter (ctx : Context) (kind : Container) (c : Compilation) : Compilation :=
  match kind with
  | .paragraph => if c.listDepth = 0 then (c.flush ctx).build Document.addParagraph else c
  | .header _ => if c.listDepth = 0 then c.flush ctx else c.flushElement ctx
  | .bulletList | .orderedList => c.openList ctx
  | .root | .listItem | .quote | .emphasis | .link _ => c

/-- What a visit that began at a list depth does behind the children of a container. -/
def leave (ctx : Context) (depth : ℕ) (kind : Container) (c : Compilation) : Compilation :=
  match kind with
  | .paragraph =>
    if depth = 0 then
      if c.heldIndent.isEmpty then c.flush ctx
      else (c.flush ctx).build (Document.setIndent c.heldIndent)
    else c
  | .header level =>
    if depth = 0 then (c.release ctx).2.addSection level (c.release ctx).1 else c.keepHeader ctx
  | .bulletList | .orderedList => c.closeList
  | .listItem => c.flushElement ctx
  | .link url => c.link url
  | .root | .quote | .emphasis => c

theorem visit_container (c : Compilation) (kind : Container) (children : List Node) :
    visit ctx c (.container kind children) =
      leave ctx c.listDepth kind (visitAll ctx (enter ctx kind c) children) := by
  cases kind <;> simp only [visit, enter, leave]
  all_goals split <;> rfl

theorem visit_leaf (ctx : Context) (c : Compilation) (l : Leaf) :
    (∃ link, visit ctx c (.leaf l) = c.hold ctx l.offset l.content link) ∨
      l.content = [] ∧ ∃ message, visit ctx c (.leaf l) = c.note message none := by
  cases l with
  | text offset t => exact .inl ⟨none, by rw [visit]; rfl⟩
  | code offset t => exact .inl ⟨none, by rw [visit]; rfl⟩
  | autolink offset url => exact .inl ⟨some url, by rw [visit]; rfl⟩
  | special offset kind => exact .inl ⟨none, by rw [visit]; rfl⟩
  | omitted kind => exact .inr ⟨rfl, _, by rw [visit]⟩

variable {c c' : Compilation}

/-- The sentences and the text that the events of a visit act on. -/
def intake (c : Compilation) : Intake := ⟨c.document.added, c.held⟩

theorem intake_build {f : Document → Document} (c : Compilation)
    (hf : (f c.document).added = c.document.added) : (c.build f).intake = c.intake := by
  simp [intake, Compilation.build, hf]

theorem intake_flush (c : Compilation) :
    (c.flush ctx).intake = c.intake.accept ctx .boundary := by
  simp [intake, Intake.accept, flush, release, Compilation.build, Document.added_foldl_addSentence]

theorem intake_addElement (hheld : c'.held = []) (hdocument : c'.document = c.document) :
    (c'.addElement (c.release ctx).1).intake = c.intake.accept ctx .boundary := by
  unfold addElement
  split
  · rename_i hempty
    have hempty : extract ctx.terminators c.held = [] := List.isEmpty_iff.mp hempty
    simp [intake, Intake.accept, hempty, hheld, hdocument]
  · simp [intake, Intake.accept, Compilation.build, release, hheld, hdocument]

theorem intake_flushElement (c : Compilation) :
    (c.flushElement ctx).intake = c.intake.accept ctx .boundary := intake_addElement rfl rfl

theorem intake_keepHeader (c : Compilation) :
    (c.keepHeader ctx).intake = c.intake.accept ctx .boundary := by
  unfold keepHeader
  dsimp only
  split
  · rename_i hnone
    have hnone : extract ctx.terminators c.held = [] := List.head?_eq_none_iff.mp hnone
    simp [intake, Intake.accept, release, hnone]
  · exact intake_addElement rfl rfl

theorem intake_addSection (c : Compilation) (level : ℕ) :
    ((c.release ctx).2.addSection level (c.release ctx).1).intake =
      c.intake.accept ctx .boundary := by
  rw [intake, (frame_addSection _ _ _).1, added_addSection]
  rfl

theorem intake_openList (c : Compilation) :
    (c.openList ctx).intake = c.intake.accept ctx .boundary := by
  unfold openList
  split
  · exact (intake_build _ (Document.added_addList _)).trans (intake_flush c)
  · exact intake_flushElement c

theorem intake_link (c : Compilation) (url : Text) :
    (c.link url).intake = c.intake.accept ctx (.link url) := by
  unfold link
  split
  · rename_i span hspan
    obtain ⟨init, hinit⟩ := List.getLast?_eq_some_iff.mp hspan
    simp [intake, Intake.accept, hinit]
  · rename_i hnone
    simp [intake, Intake.accept, List.getLast?_eq_none_iff.mp hnone, warn]

theorem intake_leaf (c : Compilation) (l : Leaf) :
    (visit ctx c (.leaf l)).intake = l.events.foldl (Intake.accept ctx) c.intake := by
  cases l <;> rw [visit] <;> rfl

theorem intake_enter (c : Compilation) {inList : Bool} (hlist : inList = true ↔ c.listDepth ≠ 0)
    (kind : Container) : (enter ctx kind c).intake =
      (kind.opening inList).foldl (Intake.accept ctx) c.intake := by
  cases kind with
  | paragraph =>
    rw [enter, Container.opening, Container.before]
    by_cases hdepth : c.listDepth = 0
    · have hout : ¬ inList = true := by simp [hlist, hdepth]
      rw [if_pos hdepth, if_neg hout]
      exact (intake_build _ (Document.added_addParagraph _)).trans (intake_flush c)
    · rw [if_neg hdepth, if_pos (hlist.mpr hdepth)]
      rfl
  | header level =>
    rw [enter]
    split
    · exact intake_flush c
    · exact intake_flushElement c
  | bulletList => exact intake_openList c
  | orderedList => exact intake_openList c
  | root => rfl
  | listItem => rfl
  | quote => rfl
  | emphasis => rfl
  | link url => rfl

theorem intake_leave (c : Compilation) {inList : Bool} {depth : ℕ}
    (hlist : inList = true ↔ depth ≠ 0) (kind : Container) : (leave ctx depth kind c).intake =
      (kind.closing inList).foldl (Intake.accept ctx) c.intake := by
  cases kind with
  | paragraph =>
    dsimp only [leave, Container.closing, Container.behind]
    by_cases hdepth : depth = 0
    · have hout : ¬ inList = true := by simp [hlist, hdepth]
      rw [if_pos hdepth, if_neg hout]
      split
      · exact intake_flush c
      · exact (intake_build _ (Document.added_setIndent _ _)).trans (intake_flush c)
    · rw [if_neg hdepth, if_pos (hlist.mpr hdepth)]
      rfl
  | header level =>
    rw [leave]
    split
    · exact intake_addSection c level
    · exact intake_keepHeader c
  | bulletList => rfl
  | orderedList => rfl
  | listItem => exact intake_flushElement c
  | link url => exact @intake_link ctx c url
  | root => rfl
  | quote => rfl
  | emphasis => rfl

/-- A change between compilations that passes boundaries, at most one of them. Without a boundary
the text stays where it is; at a boundary all text held back becomes sentences. -/
inductive Passes (ctx : Context) (c c' : Compilation) : ℕ → Prop
  | stay (prose : c'.document.prose = c.document.prose)
      (held : c'.held.map (fun s => (s.line, s.text)) = c.held.map fun s => (s.line, s.text)) :
      Passes ctx c c' 0
  | release (held : c'.held = [])
      (prose : c'.document.prose = c.document.prose ++ (c.release ctx).1.map Sentence.body) :
      Passes ctx c c' 1

theorem Passes.of_boundaries {n : ℕ} (hn : n ≤ 1) (h : c'.intake =
    (List.replicate n Event.boundary).foldl (Intake.accept ctx) c.intake) : Passes ctx c c' n := by
  have hadded : c'.document.added = _ := congrArg Intake.added h
  have hheld : c'.held = _ := congrArg Intake.held h
  obtain rfl | rfl : n = 0 ∨ n = 1 := by omega
  · exact .stay (Document.prose_of_added_eq hadded) (by rw [hheld]; rfl)
  · exact .release hheld (Document.prose_of_added hadded)

theorem passes_link (c : Compilation) (url : Text) : Passes ctx c (c.link url) 0 := by
  unfold link
  split
  · rename_i span hspan
    obtain ⟨init, hinit⟩ := List.getLast?_eq_some_iff.mp hspan
    exact .stay rfl (by simp [hinit])
  · exact .stay rfl rfl

theorem passes_enter (c : Compilation) {inList : Bool} (hlist : inList = true ↔ c.listDepth ≠ 0)
    (kind : Container) : Passes ctx c (enter ctx kind c) (kind.before inList) :=
  .of_boundaries (kind.before_le inList) (intake_enter c hlist kind)

theorem passes_leave (c : Compilation) {inList : Bool} {depth : ℕ}
    (hlist : inList = true ↔ depth ≠ 0) (kind : Container) :
    Passes ctx c (leave ctx depth kind c) (kind.behind inList) := by
  have hleave := @intake_leave ctx c inList depth hlist kind
  cases kind with
  | link url => exact passes_link c url
  | _ => exact .of_boundaries (Container.behind_le inList _) hleave

@[simp] theorem listDepth_build (f : Document → Document) (c : Compilation) :
    (c.build f).listDepth = c.listDepth := rfl

@[simp] theorem listDepth_flush (c : Compilation) : (c.flush ctx).listDepth = c.listDepth := rfl

@[simp] theorem listDepth_release (c : Compilation) :
    (c.release ctx).2.listDepth = c.listDepth := rfl

@[simp] theorem listDepth_addElement (ss : List Sentence) (c : Compilation) :
    (c.addElement ss).listDepth = c.listDepth := by
  unfold addElement
  split <;> rfl

@[simp] theorem listDepth_flushElement (c : Compilation) :
    (c.flushElement ctx).listDepth = c.listDepth := listDepth_addElement _ _

@[simp] theorem listDepth_keepHeader (c : Compilation) :
    (c.keepHeader ctx).listDepth = c.listDepth := by
  unfold keepHeader
  dsimp only
  split
  · rfl
  · exact listDepth_addElement _ _

@[simp] theorem listDepth_addSection (c : Compilation) (level : ℕ) (header : List Sentence) :
    (c.addSection level header).listDepth = c.listDepth := (frame_addSection c level header).2

@[simp] theorem listDepth_link (c : Compilation) (url : Text) :
    (c.link url).listDepth = c.listDepth := by
  unfold link
  split <;> rfl

@[simp] theorem listDepth_openList (c : Compilation) :
    (c.openList ctx).listDepth = c.listDepth + 1 := by
  unfold openList
  split <;> simp

@[simp] theorem listDepth_closeList (c : Compilation) :
    c.closeList.listDepth = c.listDepth - 1 := rfl

theorem listDepth_enter (c : Compilation) (kind : Container) :
    (enter ctx kind c).listDepth = if kind.isList then c.listDepth + 1 else c.listDepth := by
  cases kind <;> simp [enter, Container.isList]
  all_goals split <;> simp

theorem listDepth_leave (c : Compilation) (depth : ℕ) (kind : Container) :
    (leave ctx depth kind c).listDepth = if kind.isList then c.listDepth - 1 else c.listDepth := by
  cases kind <;> simp [leave, Container.isList]
  case paragraph =>
    split
    · split <;> simp
    · rfl
  case header => split <;> simp

mutual

/-- A visit closes the lists that it opens. -/
theorem listDepth_visit (c : Compilation) : (n : Node) →
    (visit ctx c n).listDepth = c.listDepth
  | .leaf l => by
    rcases visit_leaf ctx c l with ⟨link, h⟩ | ⟨-, message, h⟩ <;> rw [h] <;> rfl
  | .container kind children => by
    rw [visit_container, listDepth_leave, listDepth_visitAll _ children, listDepth_enter]
    split <;> rfl

theorem listDepth_visitAll (c : Compilation) : (ns : List Node) →
    (visitAll ctx c ns).listDepth = c.listDepth
  | [] => by rw [visitAll]
  | n :: ns => by rw [visitAll, listDepth_visitAll _ ns, listDepth_visit c n]

end

/-- Nothing is held back and no list is open. -/
structure Idle (c : Compilation) : Prop where
  held : c.held = []
  listDepth : c.listDepth = 0

theorem flush_of_held_nil (h : c.held = []) : c.flush ctx = c := by
  obtain ⟨document, diagnostics, held, listDepth⟩ := c
  obtain rfl : held = [] := h
  rfl

theorem flushElement_of_held_nil (h : c.held = []) : c.flushElement ctx = c := by
  obtain ⟨document, diagnostics, held, listDepth⟩ := c
  obtain rfl : held = [] := h
  rfl

theorem held_addElement (h : c.held = []) (ss : List Sentence) : (c.addElement ss).held = [] := by
  unfold addElement
  split <;> exact h

theorem held_flushElement (c : Compilation) : (c.flushElement ctx).held = [] :=
  held_addElement rfl _

mutual

/-- A visit takes in the events of the trail one after another. Whether a node is in a list is seen
by the number of open lists. -/
theorem intake_visit (c : Compilation) {inList : Bool} (hlist : inList = true ↔ c.listDepth ≠ 0) :
    (n : Node) → (visit ctx c n).intake = (n.trail inList).foldl (Intake.accept ctx) c.intake
  | .leaf l => by rw [intake_leaf, Node.trail]
  | .container kind children => by
    have hinside : (inList || kind.isList) = true ↔ (enter ctx kind c).listDepth ≠ 0 := by
      rw [listDepth_enter]
      cases kind.isList <;> simp [hlist]
    rw [visit_container, intake_leave _ hlist kind, intake_visitAll _ hinside children,
      intake_enter c hlist kind, Node.trail, List.foldl_append, List.foldl_append]

theorem intake_visitAll (c : Compilation) {inList : Bool}
    (hlist : inList = true ↔ c.listDepth ≠ 0) : (ns : List Node) →
    (visitAll ctx c ns).intake = (Node.trailOfAll inList ns).foldl (Intake.accept ctx) c.intake
  | [] => by rw [visitAll, Node.trailOfAll, List.foldl_nil]
  | n :: ns => by
    have hrest : inList = true ↔ (visit ctx c n).listDepth ≠ 0 := by rwa [listDepth_visit]
    rw [visitAll, intake_visitAll _ hrest ns, intake_visit c hlist n, Node.trailOfAll,
      List.foldl_append]

end

end Compilation

/-- The sentences of a compiled document are those that the trail of the tree adds, the last of them
at a boundary behind it. -/
theorem unflagged_sentences_compile (ctx : Context) (name : Text) (tree : Node) :
    (compile ctx name tree).1.sentences.map Sentence.unflagged =
      ((tree.trail false ++ [Event.boundary]).foldl (Intake.accept ctx) {}).added := by
  have hvisit := @Compilation.intake_visit ctx { document := { name := name } } false (by simp) tree
  rw [(nested_compile ctx name tree).map_unflagged_sentences, List.foldl_append, List.foldl_cons,
    List.foldl_nil]
  exact (congrArg Intake.added (Compilation.intake_flush _)).trans
    (congrArg (fun t => (Intake.accept ctx t .boundary).added) hvisit)

end ProseLint.Markup
