import ProseLint.Parse
import ProseLint.Proofs.Markup.Tracing

/-!
# The lines of sentences

The readers of wiki texts and plain texts leave the characters of the source in place and give every
leaf its own line. So the line of a sentence is that of its first character, and since the
characters keep their order, the lines of the sentences never go back.
-/
namespace ProseLint.Parse

open Markup (Context Node Origin Traces)

/-- The first characters of the sentences, found in the tree by the ink in front of them, stand on
the lines of the sentences in the source. -/
structure LinesSpec (text : Text) (tree : Node) (sentences : List Sentence) : Prop where
  /-- The characters of the tree, without its blanks, stand in the source in this order. -/
  origins : ((Marked.ink tree.chars).map fun x => (x.1, x.2.position)).Sublist (Text.placed 0 text)
  first : ∀ i s, sentences[i]? = some s → ∃ before c origin after start rest,
    tree.chars = before ++ (c, origin) :: after ∧
      Text.ink (Marked.text before) = Text.ink ((sentences.take i).flatMap (·.content)) ∧
      isBlank c = false ∧ s.content.head? = some c ∧
      text = start ++ c :: rest ∧ origin.position = Text.byteLength start ∧
      s.line = 1 + start.count '\n'
  ordered : sentences.Pairwise fun s s' => s.line ≤ s'.line
  bounded : ∀ s ∈ sentences, 1 ≤ s.line ∧ s.line ≤ (LineTable.ofText text).lineCount

variable {text : Text} {m : Marked Origin} {x : Char × Origin}

/-- The line of the leaf is the line of the character, for no line feed stands between them. -/
theorem lineNumber_leaf (h : Traces 0 text m) (hx : x ∈ m) :
    ∃ start rest, text = start ++ x.1 :: rest ∧ x.2.position = Text.byteLength start ∧
      (LineTable.ofText text).lineNumber x.2.leaf = 1 + start.count '\n' := by
  obtain ⟨before, between, after, rfl, hleaf, hposition, hbetween⟩ := h.same_line x hx
  rw [Nat.zero_add] at hleaf hposition
  refine ⟨before ++ between, after, rfl, hposition, ?_⟩
  rw [hleaf, List.count_append, List.count_eq_zero_of_not_mem hbetween, Nat.add_zero]
  cases between with
  | nil =>
    rw [List.append_nil]
    exact LineTable.lineNumber_eq _ _ _
  | cons c between =>
    rw [List.append_assoc, List.cons_append]
    exact LineTable.lineNumber_eq _ _ _

theorem lineNumber_leaf_eq_position (h : Traces 0 text m) (hx : x ∈ m) :
    (LineTable.ofText text).lineNumber x.2.leaf =
      (LineTable.ofText text).lineNumber x.2.position := by
  obtain ⟨start, rest, rfl, hposition, hline⟩ := lineNumber_leaf h hx
  rw [hline, hposition, LineTable.lineNumber_eq]

section

variable {T : Terminators} {m : Marked Origin} {ss : List Sentence}

/-- A sentence begins with a character of the source and stands on its line. -/
theorem exists_first (h : Traces 0 text (Marked.ink m))
    (hcov : Covered (Context.lineOf ⟨LineTable.ofText text, T⟩) T.Inked (ss.map Sentence.body) m)
    {i : ℕ} {s : Sentence} (hi : ss[i]? = some s) :
    ∃ before c origin after start rest, m = before ++ (c, origin) :: after ∧
      Text.ink (Marked.text before) = Text.ink ((ss.take i).flatMap (·.content)) ∧
      isBlank c = false ∧ s.content.head? = some c ∧
      text = start ++ c :: rest ∧ origin.position = Text.byteLength start ∧
      s.line = 1 + start.count '\n' := by
  obtain ⟨before, ⟨c, origin⟩, after, rfl, hink, hc, hhead, hline⟩ :=
    hcov.exists_first (i := i) (b := s.body) (by simp [hi])
  have hmem : (c, origin) ∈ Marked.ink (before ++ (c, origin) :: after) := by
    simp [Marked.ink, hc]
  obtain ⟨start, rest, htext, hposition, hnumber⟩ := lineNumber_leaf h hmem
  rw [← List.map_take, flatMap_fst_body] at hink
  exact ⟨before, c, origin, after, start, rest, rfl, hink, hc, hhead, htext, hposition,
    hline.symm.trans hnumber⟩

/-- The lines do not go back, for the positions of the first characters increase. -/
theorem pairwise_line (h : Traces 0 text (Marked.ink m))
    (hcov : Covered (Context.lineOf ⟨LineTable.ofText text, T⟩) T.Inked (ss.map Sentence.body) m) :
    ss.Pairwise fun s s' => s.line ≤ s'.line := by
  obtain ⟨firsts, hsub, hfirsts⟩ := hcov.exists_firsts
  have hlines : ss.map (·.line) =
      firsts.map fun x => (LineTable.ofText text).lineNumber x.2.position := by
    have hleaves : List.Forall₂ (· = ·) (ss.map (·.line))
        (firsts.map fun x => (LineTable.ofText text).lineNumber x.2.leaf) := by
      rw [List.forall₂_map_left_iff, List.forall₂_map_right_iff]
      rw [List.forall₂_map_left_iff] at hfirsts
      exact hfirsts.imp fun _ _ hline => hline.symm
    rw [List.forall₂_eq_eq_eq] at hleaves
    rw [hleaves]
    exact List.map_congr_left fun x hx => lineNumber_leaf_eq_position h (hsub.subset hx)
  have hpositions : (Marked.ink m).Pairwise fun x y => x.2.position < y.2.position := by
    have hplaced := (Text.pairwise_placed 0 text).sublist h.sublist
    rwa [List.pairwise_map] at hplaced
  have hordered : firsts.Pairwise fun x y => (LineTable.ofText text).lineNumber x.2.position ≤
      (LineTable.ofText text).lineNumber y.2.position :=
    (hpositions.sublist hsub).imp fun hlt => LineTable.lineNumber_mono text hlt.le
  have hmapped : (ss.map (·.line)).Pairwise (· ≤ ·) := by
    rw [hlines, List.pairwise_map]
    exact hordered
  rwa [List.pairwise_map] at hmapped

end

/-- Where the ink of a tree traces the source, the sentences are on the lines on which they
begin. -/
theorem linesSpec_of_traces {tree : Node} (h : Traces 0 text (Marked.ink tree.chars))
    (T : Terminators) (name : Text) :
    LinesSpec text tree (Markup.compile ⟨LineTable.ofText text, T⟩ name tree).1.sentences := by
  have hcov := Markup.covered_compile ⟨LineTable.ofText text, T⟩ name tree
  refine ⟨h.sublist, fun i s hi => exists_first h hcov hi, pairwise_line h hcov, ?_⟩
  intro s hs
  obtain ⟨i, hi⟩ := List.getElem?_of_mem hs
  obtain ⟨_, c, _, _, start, rest, -, -, -, -, rfl, -, hline⟩ := exists_first h hcov hi
  have hbound : (LineTable.ofText (start ++ c :: rest)).lineNumber (Text.byteLength start) ≤
      (LineTable.ofText (start ++ c :: rest)).lineCount := by
    apply LineTable.lineNumber_le_lineCount
    have hpos := c.utf8Size_pos
    simp only [Text.byteLength_append, Text.byteLength_cons]
    omega
  rw [LineTable.lineNumber_eq, ← hline] at hbound
  exact ⟨by omega, hbound⟩

/-- In a wiki text and in a plain text, each sentence stands on the line on which its first
character stands in the source. -/
theorem source_lines (format : InputFormat) (hformat : format = .wiki ∨ format = .plain)
    (T : Terminators) (name text : Text) :
    ∃ t p, tree format text = .ok t ∧ source format T name text = .ok p ∧
      LinesSpec text t p.document.sentences := by
  rcases hformat with rfl | rfl
  · exact ⟨_, _, rfl, rfl, linesSpec_of_traces (Markup.Wiki.traces_read text) T name⟩
  · exact ⟨_, _, rfl, rfl, linesSpec_of_traces (Markup.Plain.traces_read text) T name⟩

theorem source_lines_of_wiki :
    let text := "h1. One\r\n\r\nIt *is «so.\n” Then*\n* é. [x|y]!".toList
    ∃ t p, tree .wiki text = .ok t ∧ source .wiki .fullStop "a".toList text = .ok p ∧
      LinesSpec text t p.document.sentences :=
  source_lines .wiki (.inl rfl) .fullStop "a".toList _

end ProseLint.Parse
