import ProseLint.Proofs.Document.Walk
import ProseLint.Proofs.Markup.Outline
import ProseLint.Proofs.Sentence.Extraction
import ProseLint.Proofs.Text.Position

/-!
# What compilation keeps of a tree

Each character of a leaf is marked with its origin. At any time the characters of the leaves that
have been taken in are those that the prose of the document covers, and behind them those of the
text held back. When nothing is held back any more, the prose covers the whole tree.
-/
namespace ProseLint.Markup

/-- Where a character comes from: the position of its leaf and its own. -/
structure Origin where
  leaf : ℕ
  position : ℕ
  deriving DecidableEq, Repr

/-- The characters of a leaf. -/
def Leaf.chars (l : Leaf) : Marked Origin :=
  (Text.placed l.offset l.content).map fun x => (x.1, ⟨l.offset, x.2⟩)

@[simp] theorem Leaf.text_chars (l : Leaf) : Marked.text l.chars = l.content := by
  rw [Leaf.chars, Marked.text, List.map_map]
  exact Text.text_placed l.offset l.content

theorem Leaf.leaf_eq_of_mem {l : Leaf} {x : Char × Origin} (h : x ∈ l.chars) :
    x.2.leaf = l.offset := by
  obtain ⟨y, _, rfl⟩ := List.mem_map.mp h
  rfl

/-- The characters of a tree from left to right. -/
def Node.chars (n : Node) : Marked Origin := n.leaves.flatMap Leaf.chars

theorem Node.text_chars (n : Node) : Marked.text n.chars = n.leaves.flatMap Leaf.content := by
  rw [Node.chars, Marked.text, List.map_flatMap]
  exact List.flatMap_congr fun l _ => l.text_chars

/-- The line that a character is counted to is that of its leaf. -/
def Context.lineOf (ctx : Context) (o : Origin) : ℕ := ctx.lines.lineNumber o.leaf

namespace Compilation

variable {ctx : Context}

/-- A new section becomes a root or a child. -/
theorem document_addSection (c : Compilation) (level : ℕ) (header : List Sentence) :
    (c.addSection level header).document =
        (c.document.addSection level header).addRoot c.document.sections.length ∨
      ∃ parent, (c.addSection level header).document =
        (c.document.addSection level header).attachChild parent c.document.sections.length := by
  unfold Compilation.addSection
  dsimp only
  split
  · exact .inl rfl
  · split
    · exact .inr ⟨_, rfl⟩
    · split <;> exact .inl rfl

/-- Wherever a new section is placed, its header is added last. -/
theorem added_addSection (c : Compilation) (level : ℕ) (header : List Sentence) :
    (c.addSection level header).document.added =
      c.document.added ++ header.map Sentence.unflagged := by
  obtain h | ⟨parent, h⟩ := document_addSection c level header <;> simp [h]

/-- A new section changes the document and the remarks only. -/
theorem frame_addSection (c : Compilation) (level : ℕ) (header : List Sentence) :
    (c.addSection level header).held = c.held ∧
      (c.addSection level header).listDepth = c.listDepth := by
  unfold Compilation.addSection
  dsimp only
  split
  · exact ⟨rfl, rfl⟩
  · split
    · exact ⟨rfl, rfl⟩
    · split <;> exact ⟨rfl, rfl⟩

/-- The characters taken in so far are in the prose of the document or held back. -/
structure Keeps (ctx : Context) (c : Compilation) (past : List Leaf) : Prop where
  exists_split : ∃ before ms, past.flatMap Leaf.chars = before ++ ms.flatten ∧
    Covered ctx.lineOf ctx.terminators.Inked c.document.prose before ∧
    List.Forall₂ (Marks ctx.lineOf) c.held ms

namespace Keeps

variable {c c' : Compilation} {past : List Leaf}

theorem start (name : Text) : Keeps ctx { document := { name := name } } [] :=
  ⟨[], [], rfl, .nil, .nil⟩

theorem congr (h : Keeps ctx c past) (hprose : c'.document.prose = c.document.prose)
    (hheld : c'.held = c.held) : Keeps ctx c' past := by
  obtain ⟨before, ms, hpast, hcov, hms⟩ := h
  exact ⟨before, ms, hpast, hprose ▸ hcov, hheld ▸ hms⟩

theorem append_nil (h : Keeps ctx c past) : Keeps ctx c (past ++ []) := by
  rwa [List.append_nil]

/-- With nothing held back the prose covers all characters. -/
theorem of_covered (hheld : c.held = [])
    (h : Covered ctx.lineOf ctx.terminators.Inked c.document.prose (past.flatMap Leaf.chars)) :
    Keeps ctx c past :=
  ⟨_, [], by simp, h, hheld ▸ .nil⟩

theorem covered (h : Keeps ctx c past) (hheld : c.held = []) :
    Covered ctx.lineOf ctx.terminators.Inked c.document.prose (past.flatMap Leaf.chars) := by
  obtain ⟨before, ms, hpast, hcov, hms⟩ := h
  rw [hheld, List.forall₂_nil_left_iff] at hms
  rwa [hpast, hms, List.flatten_nil, List.append_nil]

/-- The sentences that are released belong right behind the prose. -/
theorem release (h : Keeps ctx c past) : Covered ctx.lineOf ctx.terminators.Inked
    (c.document.prose ++ (c.release ctx).1.map Sentence.body) (past.flatMap Leaf.chars) := by
  obtain ⟨before, ms, hpast, hcov, hms⟩ := h
  rw [hpast]
  exact hcov.append (covered_extract ctx.terminators hms)

theorem hold (h : Keeps ctx c past) (l : Leaf) (link : Option Text) :
    Keeps ctx (c.hold ctx l.offset l.content link) (past ++ [l]) := by
  obtain ⟨before, ms, hpast, hcov, hms⟩ := h
  refine ⟨before, ms ++ [l.chars], by simp [hpast], hcov, ?_⟩
  refine List.rel_append hms (.cons ⟨l.text_chars, ?_⟩ .nil)
  intro x hx
  rw [Context.lineOf, Leaf.leaf_eq_of_mem hx]

/-- What is left out adds no characters. -/
theorem leaveOut (h : Keeps ctx c past) (kind : OmittedKind) (message : Text) :
    Keeps ctx (c.note message none) (past ++ [.omitted kind]) := by
  obtain ⟨before, ms, hpast, hcov, hms⟩ := h
  exact ⟨before, ms, by simpa [Leaf.chars, Leaf.content] using hpast, hcov, hms⟩

/-- A url changes neither the text nor the line of the span that gets it. -/
theorem link (h : Keeps ctx c past) (url : Text) : Keeps ctx (c.link url) past := by
  unfold Compilation.link
  split
  · rename_i span hspan
    obtain ⟨before, ms, hpast, hcov, hms⟩ := h
    refine ⟨before, ms, hpast, hcov, ?_⟩
    obtain ⟨init, hinit⟩ := List.getLast?_eq_some_iff.mp hspan
    rw [hinit] at hms
    obtain ⟨ms', m, rfl, hms', hm⟩ := exists_of_forall₂_concat hms
    simp only [hinit, List.dropLast_concat]
    exact List.rel_append hms' (.cons ⟨hm.text_eq, hm.line_eq⟩ .nil)
  · exact h.congr rfl rfl

theorem flush (h : Keeps ctx c past) : Keeps ctx (c.flush ctx) past := by
  refine .of_covered rfl ?_
  have hprose : (c.flush ctx).document.prose =
      c.document.prose ++ (c.release ctx).1.map Sentence.body :=
    Document.prose_foldl_addSentence _ _
  rw [hprose]
  exact h.release

/-- Released sentences may go into a list element. -/
theorem addElement (h : Keeps ctx c past) (hheld : c'.held = [])
    (hdocument : c'.document = c.document) :
    Keeps ctx (c'.addElement (c.release ctx).1) past := by
  have hcov := h.release
  unfold Compilation.addElement
  split
  · rename_i hempty
    rw [List.isEmpty_iff] at hempty
    rw [hempty, List.map_nil, List.append_nil] at hcov
    exact .of_covered hheld (hdocument ▸ hcov)
  · refine .of_covered hheld ?_
    rw [build, Document.prose_addElement, hdocument]
    exact hcov

theorem keepHeader (h : Keeps ctx c past) : Keeps ctx (c.keepHeader ctx) past := by
  unfold Compilation.keepHeader
  dsimp only
  split
  · rename_i hnone
    have hcov := h.release
    rw [List.head?_eq_none_iff.mp hnone, List.map_nil, List.append_nil] at hcov
    exact .of_covered rfl hcov
  · exact h.addElement rfl rfl

theorem addSection (h : Keeps ctx c past) (level : ℕ) :
    Keeps ctx ((c.release ctx).2.addSection level (c.release ctx).1) past := by
  refine .of_covered (frame_addSection _ _ _).1 ?_
  rw [Document.prose_of_added (added_addSection _ _ _)]
  exact h.release

/-- Every step keeps the characters, and adds those of the leaves that it takes in. -/
theorem step (h : Keeps ctx c past) {ls : List Leaf} (hs : Step ctx c ls c') :
    Keeps ctx c' (past ++ ls) := by
  cases hs with
  | hold l link => exact h.hold l link
  | leaveOut kind => exact h.leaveOut kind _
  | link url => exact (h.link url).append_nil
  | depth n => exact Keeps.append_nil (h.congr rfl rfl)
  | addParagraph => exact Keeps.append_nil (h.congr (by simp [build]) rfl)
  | setIndent indent => exact Keeps.append_nil (h.congr (by simp [build]) rfl)
  | addList => exact Keeps.append_nil (h.congr (by simp [build]) rfl)
  | flush => exact h.flush.append_nil
  | flushElement => exact Keeps.append_nil (h.addElement rfl rfl)
  | keepHeader => exact h.keepHeader.append_nil
  | addSection level => exact (h.addSection level).append_nil

end Keeps
end Compilation

/-- The sentences of a compiled document cover the characters of the tree. -/
theorem covered_compile (ctx : Context) (name : Text) (tree : Node) :
    Covered ctx.lineOf ctx.terminators.Inked
      ((compile ctx name tree).1.sentences.map Sentence.body) tree.chars := by
  obtain ⟨c, hrun, hheld, heq⟩ := compile_run ctx name tree
  have hkeeps : Compilation.Keeps ctx c ([] ++ tree.leaves) :=
    hrun.invariant (Compilation.Keeps ctx) (fun h hs => h.step hs) [] (.start name)
  have hnested : c.document.Nested := (outlined_of_run hrun).nested
  rw [heq, hnested.map_body_sentences]
  exact hkeeps.covered hheld

/-- The sentences of a compiled document hold the ink of the leaves of the tree, in the order of the
leaves. -/
theorem compile_keeps_ink (ctx : Context) (name : Text) (tree : Node) :
    Text.ink ((compile ctx name tree).1.sentences.flatMap (·.content)) =
      Text.ink (tree.leaves.flatMap Leaf.content) := by
  rw [← flatMap_fst_body, (covered_compile ctx name tree).ink_eq, Node.text_chars]

end ProseLint.Markup
