import ProseLint.Parse
import ProseLint.Proofs.Markup.WikiLinks
import ProseLint.Proofs.Markup.WikiLists
import ProseLint.Proofs.Text.Lines

/-!
# Texts without markup

The wiki dialect adds to plain text what its marks say, and nothing else. Where no inline mark
occurs and no line has the form of a block, a line of the wiki dialect does to the paragraph under
way what a line of plain text does: a blank line ends it, any other goes on with it. So the two
formats read the same tree from such a text.
-/
namespace ProseLint.Markup

namespace SourceLine

/-- The characters of a line come from the source. -/
theorem mem_of_mem_place {offset : ℕ} {ls : List Text} {l : SourceLine} {c : Char}
    (hl : l ∈ place offset ls) (hc : c ∈ l.text) : c ∈ ls.flatten := by
  induction ls generalizing offset with
  | nil => simp [place] at hl
  | cons k ls ih =>
    rw [List.flatten_cons, List.mem_append]
    rcases List.mem_cons.mp hl with rfl | hl
    · obtain ⟨w, hw⟩ := Text.exists_chomp_append k
      rw [hw]
      exact .inl (List.mem_append_left w hc)
    · exact .inr (ih hl)

theorem mem_of_mem_all {source : Text} {l : SourceLine} {c : Char} (hl : l ∈ all source)
    (hc : c ∈ l.text) : c ∈ source :=
  Text.flatten_lines source ▸ mem_of_mem_place hl hc

end SourceLine

namespace Wiki

/-- The text holds no opening bracket and no mark of emphasis. -/
def MarkFree (t : Text) : Prop := '[' ∉ t ∧ '*' ∉ t ∧ '_' ∉ t

/-- The line is no table row, no mark of a code block, no header, no rule and no list item. -/
structure Unmarked (line : Text) : Prop where
  row : (Text.trim line).head? ≠ some '|'
  code : ¬codeMark <+: Text.trim line
  header : header? line = none
  rule : isRule line = false
  item : listItem? line = none

instance : DecidablePred Unmarked := fun line =>
  decidable_of_iff ((Text.trim line).head? ≠ some '|' ∧ ¬codeMark <+: Text.trim line ∧
      header? line = none ∧ isRule line = false ∧ listItem? line = none)
    ⟨fun ⟨hrow, hcode, hheader, hrule, hitem⟩ => ⟨hrow, hcode, hheader, hrule, hitem⟩,
      fun ⟨hrow, hcode, hheader, hrule, hitem⟩ => ⟨hrow, hcode, hheader, hrule, hitem⟩⟩

theorem inlineFrom_of_markFree (offset : ℕ) (plain : Text) {t : Text} (h : MarkFree t) :
    inlineFrom offset plain t = textLeaf offset (plain.reverse ++ t) := by
  induction t generalizing plain with
  | nil => rw [inlineFrom_nil, List.append_nil]
  | cons c t ih =>
    simp only [MarkFree, List.mem_cons, not_or] at h
    obtain ⟨⟨hbracket, h₁⟩, ⟨hstar, h₂⟩, hline, h₃⟩ := h
    have hplain : piece? (c :: t) = none :=
      piece?_plain (Ne.symm hbracket) (not_or.mpr ⟨Ne.symm hstar, Ne.symm hline⟩) t
    rw [inlineFrom_of_none offset plain hplain, ih (c :: plain) ⟨h₁, h₂, h₃⟩]
    simp

theorem inline_of_markFree (offset : ℕ) {t : Text} (h : MarkFree t) (ht : t ≠ []) :
    inline offset t = [.text offset t] := by
  rw [inline, inlineFrom_of_markFree offset [] h]
  simp [textLeaf, ht]

theorem State.closeBlocks_of_nil {s : State} (h : s.lists = []) :
    s.closeBlocks = { s.closeParagraph with inTable := false } := by
  have hlists : s.closeParagraph.lists = [] := by
    unfold State.closeParagraph
    split <;> exact h
  rw [State.closeBlocks, State.closeListsTo_of_nil hlists]

/-- Nothing is open but the paragraph of these nodes, and not even that when there are none. -/
structure Writes (s : State) (children : List Node) : Prop where
  paragraph_eq : s.paragraph = if children.isEmpty then none else some children
  lists_eq : s.lists = []
  inCode_eq : s.inCode = false

namespace Writes

variable {s : State} {children : List Node} {l : SourceLine}

theorem closeBlocks (h : Writes s children) : Writes s.closeBlocks [] ∧
    s.closeBlocks.blocks = s.blocks ++ Plain.closeParagraph children := by
  rw [State.closeBlocks_of_nil h.lists_eq, State.closeParagraph, h.paragraph_eq]
  cases children with
  | nil => exact ⟨⟨h.paragraph_eq, h.lists_eq, h.inCode_eq⟩, (List.append_nil _).symm⟩
  | cons n ns => exact ⟨⟨rfl, h.lists_eq, h.inCode_eq⟩, rfl⟩

/-- A line of text does to the paragraph what a line of plain text does. -/
theorem addText (h : Writes s children) (hfree : MarkFree l.text) (hne : l.text ≠ []) :
    Writes (addText s l) (Plain.addLine children l) ∧ (addText s l).blocks = s.blocks := by
  rw [Wiki.addText, State.closeListsTo_of_nil h.lists_eq, inline_of_markFree _ hfree hne,
    h.paragraph_eq]
  cases children with
  | nil => exact ⟨⟨rfl, h.lists_eq, h.inCode_eq⟩, rfl⟩
  | cons n ns => exact ⟨⟨rfl, h.lists_eq, h.inCode_eq⟩, rfl⟩

/-- A line without marks is blank, or it is text. -/
theorem addLine_eq (h : Writes s children) (hl : Unmarked l.text) :
    addLine s l = if Text.allBlank l.text then s.closeBlocks
      else Wiki.addText { s with inTable := false } l := by
  have hblank : (Text.trim l.text).isEmpty = Text.allBlank l.text := by
    rw [Bool.eq_iff_iff, List.isEmpty_iff, Text.trim_eq_nil_iff, Text.ink_eq_nil, Text.allBlank,
      List.all_eq_true]
  have hcode : Text.dropStart? codeMark (Text.trim l.text) = none :=
    if_neg (mt List.isPrefixOf_iff_prefix.mp hl.code)
  have hrow : ((Text.trim l.text).head? == some '|') = false := by simpa using hl.row
  simp only [addLine, h.inCode_eq, hcode, hblank, hrow, addPlainLine, hl.rule, hl.header, hl.item]
  simp

theorem foldl_addLine {ls : List SourceLine} (h : Writes s children)
    (hfree : ∀ l ∈ ls, MarkFree l.text) (hls : ∀ l ∈ ls, Unmarked l.text) :
    (ls.foldl addLine s).closeBlocks.blocks = s.blocks ++ Plain.paragraphsFrom children ls := by
  induction ls generalizing s children with
  | nil => exact h.closeBlocks.2
  | cons l ls ih =>
    obtain ⟨hl, hls⟩ := List.forall_mem_cons.mp hls
    obtain ⟨hlfree, hfree⟩ := List.forall_mem_cons.mp hfree
    rw [List.foldl_cons, h.addLine_eq hl, Plain.paragraphsFrom]
    by_cases hblank : Text.allBlank l.text = true
    · obtain ⟨hclosed, hblocks⟩ := h.closeBlocks
      rw [if_pos hblank, if_pos hblank, ih hclosed hfree hls, hblocks, List.append_assoc]
    · have hne : l.text ≠ [] := by
        rintro hnil
        simp [hnil, Text.allBlank] at hblank
      have hoff : Writes { s with inTable := false } children :=
        ⟨h.paragraph_eq, h.lists_eq, h.inCode_eq⟩
      obtain ⟨hwrites, hblocks⟩ := hoff.addText hlfree hne
      rw [if_neg hblank, if_neg hblank, ih hwrites hfree hls, hblocks]

end Writes

theorem read_of_unmarked {text : Text} (hfree : MarkFree text)
    (hlines : ∀ l ∈ SourceLine.all text, Unmarked l.text) : read text = Plain.read text := by
  have hline : ∀ l ∈ SourceLine.all text, MarkFree l.text := fun l hl =>
    ⟨fun hc => hfree.1 (SourceLine.mem_of_mem_all hl hc),
      fun hc => hfree.2.1 (SourceLine.mem_of_mem_all hl hc),
      fun hc => hfree.2.2 (SourceLine.mem_of_mem_all hl hc)⟩
  have hstart : Writes {} [] := ⟨rfl, rfl, rfl⟩
  rw [read, Plain.read, hstart.foldl_addLine hline hlines]
  rfl

end Wiki
end ProseLint.Markup

namespace ProseLint.Parse

open Markup (SourceLine)
open Markup.Wiki (MarkFree Unmarked)

/-- From a text without markup the wiki format and the plain format read the same tree, offsets
included, and so they give the same document and the same remarks. -/
theorem source_unmarked {text : Text} (hfree : MarkFree text)
    (hlines : ∀ l ∈ SourceLine.all text, Unmarked l.text) :
    tree .wiki text = tree .plain text ∧ ∀ (T : Terminators) (name : Text),
      source .wiki T name text = source .plain T name text := by
  have htree : tree .wiki text = tree .plain text :=
    congrArg Except.ok (Markup.Wiki.read_of_unmarked hfree hlines)
  refine ⟨htree, fun T name => ?_⟩
  rw [source, source, htree]

/-- Blank lines of all kinds, hyphens inside of a line, and a last line that is not ended. -/
theorem source_unmarked_of_blank_lines :
    let text := "One - two.\r\n three |\n \t\n\n\nh7. four\r\n-five\n---six].".toList
    MarkFree text ∧ (∀ l ∈ SourceLine.all text, Unmarked l.text) ∧
      tree .wiki text = tree .plain text ∧ ∀ (T : Terminators) (name : Text),
        source .wiki T name text = source .plain T name text := by
  intro text
  have hfree : MarkFree text := by
    unfold MarkFree
    decide
  have hlines : ∀ l ∈ SourceLine.all text, Unmarked l.text := by decide +kernel
  exact ⟨hfree, hlines, source_unmarked hfree hlines⟩

end ProseLint.Parse
