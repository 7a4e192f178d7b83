import ProseLint.Proofs.Markup.Seats

/-!
# How compiled documents are arranged

In the document of a regular tree each text is where the headers and lists around it put it. In
every compiled document the first sentences of headers and paragraphs are flagged, and no others.
-/
namespace ProseLint.Markup

namespace Compilation

variable {ctx : Context} {c c' : Compilation}

theorem flagsNone_release (c : Compilation) : FlagsNone (c.release ctx).1 :=
  fun _ hx => isFirst_of_mem_extract hx

theorem flagged_addElement (h : c.document.Flagged) {ss : List Sentence} (hss : FlagsNone ss) :
    (c.addElement ss).document.Flagged := by
  unfold addElement
  split
  · exact h
  · exact h.addElement _ hss

theorem flagged_addSection (h : c.document.Flagged) (level : ℕ) {header : List Sentence}
    (hheader : FlagsNone header) : (c.addSection level header).document.Flagged := by
  have hadded := h.addSection level hheader
  obtain hroot | ⟨parent, hchild⟩ := document_addSection c level header
  · exact hroot ▸ hadded
  · exact hchild ▸ hadded.attachChild _ _

theorem flagged_step (h : c.document.Flagged) {ls : List Leaf} (hs : Step ctx c ls c') :
    c'.document.Flagged := by
  have hrelease : (c.release ctx).2.document.Flagged := h
  cases hs with
  | hold l link => exact h
  | leaveOut kind => exact h
  | link url =>
    unfold Compilation.link
    split <;> exact h
  | depth n => exact h
  | addParagraph => exact h.addParagraph
  | setIndent indent => exact h.setIndent indent
  | addList => exact h.addList
  | flush => exact h.foldl_addSentence _
  | flushElement => exact flagged_addElement hrelease (flagsNone_release c)
  | keepHeader =>
    unfold Compilation.keepHeader
    dsimp only
    split
    · exact hrelease
    · refine flagged_addElement ?_ (flagsNone_release c)
      exact hrelease
  | addSection level => exact flagged_addSection hrelease level (flagsNone_release c)

end Compilation

/-- In a compiled document a sentence is flagged as first just in case it is the first one of a
header or of a paragraph. -/
theorem flagged_compile (ctx : Context) (name : Text) (tree : Node) :
    (compile ctx name tree).1.Flagged := by
  obtain ⟨c, hrun, -, heq⟩ := compile_run ctx name tree
  rw [heq]
  exact hrun.invariant (fun c _ => c.document.Flagged) (fun h hs => Compilation.flagged_step h hs)
    [] (by simp [Document.Flagged])

/-- The document of a regular tree is arranged as the tree is. Its sections are those of the headers
outside lists, behind a preamble or none; its lists are the outermost ones, without empty elements.
Its sentences come from groups of leaves of one place each, and stand at that place. In the document
of any tree the first sentences of headers and paragraphs are flagged, and no others. -/
theorem compile_arranges (ctx : Context) (name : Text) (tree : Node) :
    (tree.isItem = false → tree.isRegular = true → ∃ (front : ℕ) (groups : List Group),
      (compile ctx name tree).1.Arranged front tree.headerLevels tree.outerLists
          (groups.flatMap (Group.located ctx.terminators)) ∧
        groups.flatMap Group.texts = (tree.seats 0 0 .paragraph).filterMap (textAt? ctx)) ∧
      (compile ctx name tree).1.Flagged := by
  refine ⟨fun hitem hregular => ?_, flagged_compile ctx name tree⟩
  have hvisit := Compilation.seated_visit (@Compilation.Seated.start ctx name) rfl tree hitem
    hregular
  obtain ⟨front, groups, harranged, htexts⟩ := (hvisit.flush .paragraph).exists_groups
  simp only [List.nil_append, Nat.zero_add, List.length_nil] at harranged htexts
  refine ⟨front, groups, harranged, ?_⟩
  rw [← htexts]
  exact (List.append_nil _).symm

/-- A list item with a header and another list in it, behind a header and in front of a quote. -/
theorem compile_arranges_of_nested_lists :
    let ctx : Context :=
      ⟨.ofText "One.\n\n# Two\n\n- a\n\n  ## b\n\n  - c\n- d\n\n> e\n".toList, .fullStop⟩
    let paragraph (offset : ℕ) (t : String) : Node :=
      .container .paragraph [.text offset t.toList]
    let item (children : List Node) : Node := .container .listItem children
    let tree : Node := .container .root [paragraph 0 "One.",
      .container (.header 1) [.container .emphasis [.text 8 "Two".toList]],
      .container .bulletList [
        item [paragraph 15 "a", .container (.header 2) [.text 23 "b".toList],
          .container .orderedList [item [paragraph 30 "c"]]],
        item [.text 34 "d".toList]],
      .container .quote [paragraph 39 "e"]]
    tree.isItem = false ∧ tree.isRegular = true ∧ (∃ (front : ℕ) (groups : List Group),
      (compile ctx [] tree).1.Arranged front [1] 1
          (groups.flatMap (Group.located ctx.terminators)) ∧
        groups.flatMap Group.texts = [(.paragraph, 1, "One.".toList), (.header 0, 3, "Two".toList),
          (.element 0 1, 5, "a".toList), (.element 0 1, 7, "b".toList),
          (.element 0 2, 9, "c".toList), (.element 0 1, 10, "d".toList),
          (.paragraph, 12, "e".toList)]) ∧
      (compile ctx [] tree).1.Flagged := by
  intro ctx paragraph item tree
  obtain ⟨harranged, hflagged⟩ := compile_arranges ctx [] tree
  obtain ⟨front, groups, hdocument, htexts⟩ := harranged rfl rfl
  exact ⟨rfl, rfl, ⟨front, groups, hdocument, htexts.trans (by cbv)⟩, hflagged⟩

end ProseLint.Markup
