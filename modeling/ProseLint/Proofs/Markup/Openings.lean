import ProseLint.Proofs.Markup.Acts
import ProseLint.Proofs.Markup.Seats

/-!
# What a compilation opens

A paragraph outside lists, and an outermost list, is opened when its visit begins, before it is
known whether any text will come. The acts of a tree tell which paragraphs of the document stay
without a sentence for that, and whether there is a preamble.
-/
namespace ProseLint.Markup

/-- A paragraph that has just been opened gets a sentence; `inked` tells whether there is ink in the
text held back. Text for a list element or a header passes it by, and behind another block or
section no text comes back to it. -/
def fills (inked : Bool) : List Act → Bool
  | [] => false
  | .leaf l :: acts => fills (inked || l.hasInk) acts
  | .flush :: acts => inked || fills false acts
  | .element :: acts => !inked && fills false acts
  | .paragraph :: _ => inked
  | .list :: _ => inked
  | .header _ :: _ => false

/-- Every paragraph that is opened gets a sentence. -/
def fillsAll : List Act → Bool
  | [] => true
  | .paragraph :: acts => fills false acts && fillsAll acts
  | _ :: acts => fillsAll acts

namespace Sketch

theorem blank_mem_flushed (s : Sketch) : .blank ∈ s.flushed ↔
    .blank ∈ s.slots.dropLast ∨ s.slots.getLast? = some .blank ∧ s.inked = false := by
  unfold flushed
  cases s.inked with
  | true => simp [Slot.blank_mem_addSentence]
  | false => simp [← Slot.mem_iff_dropLast]

/-- A blank paragraph stays behind when one was left before, when the last one is blank and is not
filled any more, or when one is opened and not filled. -/
theorem blank_mem_foldl_take (s : Sketch) (acts : List Act) :
    .blank ∈ (acts.foldl take s).slots ↔ .blank ∈ s.slots.dropLast ∨
      (s.slots.getLast? = some .blank ∧ fills s.inked acts = false) ∨ fillsAll acts = false := by
  induction acts generalizing s with
  | nil => simp [fills, fillsAll, ← Slot.mem_iff_dropLast]
  | cons act acts ih =>
    rw [List.foldl_cons, ih]
    cases act with
    | leaf l => rfl
    | flush =>
      simp only [take, flushed, fills, fillsAll]
      cases s.inked with
      | true => simp [Slot.blank_mem_dropLast_addSentence]
      | false => simp
    | element =>
      simp only [take, fills, fillsAll]
      cases s.inked with
      | true => simp [Slot.blank_mem_dropLast_addElement, ← Slot.mem_iff_dropLast, ← or_assoc]
      | false => simp
    | paragraph =>
      simp only [take, fills, fillsAll, List.dropLast_concat, List.getLast?_concat,
        Slot.blank_mem_start, blank_mem_flushed, Bool.and_eq_false_iff, true_and, or_assoc]
    | list =>
      simp only [take, fills, fillsAll, List.dropLast_concat, Slot.blank_mem_start,
        blank_mem_flushed]
      simp [or_assoc]
    | header level =>
      simp only [take, fills, fillsAll, List.dropLast_concat]
      rw [Slot.mem_iff_dropLast]
      split <;> simp [or_assoc]

end Sketch

/-- The acts before the first header outside lists becomes a section. -/
def lead (acts : List Act) : List Act :=
  acts.takeWhile fun act => match act with
    | .header _ => false
    | .leaf _ | .flush | .paragraph | .list | .element => true

/-- The span that the text of a leaf is held back as. -/
def Leaf.span (ctx : Context) (l : Leaf) : Span :=
  ⟨ctx.lines.lineNumber l.offset, l.content, l.link⟩

/-- The sentences that acts release, behind some text held back before them. The urls of links
around other nodes do not matter for where sentences begin and end. -/
def released (ctx : Context) (held : List Span) : List Act → List Sentence
  | [] => []
  | .leaf l :: acts => released ctx (held ++ [l.span ctx]) acts
  | _ :: acts => extract ctx.terminators held ++ released ctx [] acts

namespace Sketch

/-- Behind the first section no preamble is made. -/
theorem preamble_mem_foldl_take {s : Sketch} (h : s.slots ≠ []) {acts : List Act}
    (hlevels : ∀ level, .header level ∈ acts → 1 ≤ level) :
    .preamble ∈ (acts.foldl take s).slots ↔ .preamble ∈ s.slots := by
  induction acts generalizing s with
  | nil => rfl
  | cons act acts ih =>
    have hrest : ∀ level, .header level ∈ acts → 1 ≤ level :=
      fun level hlevel => hlevels level (List.mem_cons_of_mem _ hlevel)
    have hflushed : .preamble ∈ s.flushed ↔ .preamble ∈ s.slots := by
      unfold flushed
      split
      · rw [Slot.preamble_mem_addSentence, Slot.start_of_ne_nil h]
      · rfl
    rw [List.foldl_cons, ih (slots_take_ne_nil h act) hrest]
    cases act with
    | leaf l => rfl
    | flush => exact hflushed
    | paragraph => simp [take, Slot.start_of_ne_nil (flushed_ne_nil h), hflushed]
    | list => simp [take, Slot.start_of_ne_nil (flushed_ne_nil h), hflushed]
    | element =>
      simp only [take]
      split
      · rw [Slot.preamble_mem_addElement, Slot.start_of_ne_nil h]
      · rfl
    | header level =>
      have hpos : level ≠ 0 := Nat.ne_of_gt (hlevels level List.mem_cons_self)
      simp [take, hpos]

theorem flushed_of_nil {s : Sketch} (h : s.slots = []) :
    s.flushed = if s.inked then [.preamble, .filled] else [] := by
  rw [flushed, h]
  rfl

theorem slots_take_element_of_nil {s : Sketch} (h : s.slots = []) :
    (s.take .element).slots = if s.inked then [.preamble, .list] else [] := by
  rw [take, h]
  rfl

/-- While there is no section, the first block or sentence makes a preamble. -/
theorem preamble_mem_foldl_take_of_nil (ctx : Context) {s : Sketch} (hs : s.slots = [])
    {held : List Span} (hheld : s.inked = true ↔ extract ctx.terminators held ≠ [])
    {acts : List Act} (hlevels : ∀ level, .header level ∈ acts → 1 ≤ level) :
    .preamble ∈ (acts.foldl take s).slots ↔
      released ctx held (lead acts) ≠ [] ∨ .paragraph ∈ lead acts ∨ .list ∈ lead acts := by
  induction acts generalizing s held with
  | nil => simp [hs, lead, released]
  | cons act acts ih =>
    have hrest : ∀ level, .header level ∈ acts → 1 ≤ level :=
      fun level hlevel => hlevels level (List.mem_cons_of_mem _ hlevel)
    have hmade : ∀ {s' : Sketch}, .preamble ∈ s'.slots →
        .preamble ∈ (acts.foldl take s').slots := fun hmem =>
      (preamble_mem_foldl_take (List.ne_nil_of_mem hmem) hrest).mpr hmem
    have hopened : ∀ slot : Slot, .preamble ∈ Slot.start s.flushed ++ [slot] := by
      intro slot
      rw [flushed_of_nil hs]
      split <;> simp [Slot.start]
    have hempty : (false = true) ↔ extract ctx.terminators [] ≠ [] := by
      simp [extract_eq_nil_iff]
    rw [List.foldl_cons]
    cases act with
    | leaf l =>
      have hheld' : (s.take (.leaf l)).inked = true ↔
          extract ctx.terminators (held ++ [l.span ctx]) ≠ [] := by
        rw [ne_eq, extract_eq_nil_iff] at hheld ⊢
        simp [take, hheld, Leaf.hasInk, Leaf.span, or_iff_not_imp_left]
      rw [ih (s := s.take (.leaf l)) hs hheld' hrest]
      simp [lead, released]
    | flush =>
      have hslots : (s.take .flush).slots = _ := flushed_of_nil hs
      by_cases hinked : s.inked = true
      · have hpreamble : .preamble ∈ (s.take .flush).slots := by simp [hslots, hinked]
        simp [hmade hpreamble, lead, released, hheld.mp hinked]
      · have hnil : (s.take .flush).slots = [] := by simp [hslots, hinked]
        have hnone : extract ctx.terminators held = [] := by simpa [hheld] using hinked
        rw [ih hnil hempty hrest]
        simp [lead, released, hnone]
    | element =>
      have hslots := slots_take_element_of_nil hs
      by_cases hinked : s.inked = true
      · have hpreamble : .preamble ∈ (s.take .element).slots := by simp [hslots, hinked]
        simp [hmade hpreamble, lead, released, hheld.mp hinked]
      · have hnil : (s.take .element).slots = [] := by simp [hslots, hinked]
        have hnone : extract ctx.terminators held = [] := by simpa [hheld] using hinked
        rw [ih hnil hempty hrest]
        simp [lead, released, hnone]
    | paragraph =>
      have hpreamble : .preamble ∈ (s.take .paragraph).slots := hopened .blank
      simp [hmade hpreamble, lead]
    | list =>
      have hpreamble : .preamble ∈ (s.take .list).slots := hopened .list
      simp [hmade hpreamble, lead]
    | header level =>
      have hpos : level ≠ 0 := Nat.ne_of_gt (hlevels level List.mem_cons_self)
      have hheaded : (s.take (.header level)).slots = [.headed] := by simp [take, hs, hpos]
      rw [preamble_mem_foldl_take (by simp [hheaded]) hrest, hheaded]
      simp [lead, released]

end Sketch

theorem Container.header_not_mem_actsBefore (level : ℕ) (inList : Bool) (kind : Container) :
    .header level ∉ kind.actsBefore inList := by
  cases kind <;> cases inList <;> simp [Container.actsBefore]

mutual

/-- The sections are those of the headers outside lists. -/
theorem Node.mem_headerLevels_of_acts {level : ℕ} {inList : Bool} : (n : Node) →
    .header level ∈ n.acts inList → inList = false ∧ level ∈ n.headerLevels
  | .leaf l, h => by simp [Node.acts] at h
  | .container kind children, h => by
    rw [Node.acts, List.mem_append, List.mem_append] at h
    rw [Node.headerLevels]
    rcases h with (h | h) | h
    · exact absurd h (kind.header_not_mem_actsBefore level inList)
    · obtain ⟨houtside, hlevel⟩ := Node.mem_headerLevels_of_actsOfAll children h
      rw [Bool.or_eq_false_iff] at houtside
      refine ⟨houtside.1, ?_⟩
      simp [houtside.2, hlevel]
    · cases kind <;> cases inList <;> simp_all [Container.actsBehind, Container.isList,
        Container.level?]

theorem Node.mem_headerLevels_of_actsOfAll {level : ℕ} {inList : Bool} : (ns : List Node) →
    .header level ∈ Node.actsOfAll inList ns →
      inList = false ∧ level ∈ Node.headerLevelsOfAll ns
  | [], h => by simp [Node.actsOfAll] at h
  | n :: ns, h => by
    rw [Node.actsOfAll, List.mem_append] at h
    rw [Node.headerLevelsOfAll, List.mem_append]
    rcases h with h | h
    · obtain ⟨houtside, hlevel⟩ := n.mem_headerLevels_of_acts h
      exact ⟨houtside, .inl hlevel⟩
    · obtain ⟨houtside, hlevel⟩ := Node.mem_headerLevels_of_actsOfAll ns h
      exact ⟨houtside, .inr hlevel⟩

end

/-- Let the headers outside lists be of level 1 or more. Every paragraph of the compiled document
holds a sentence just when every paragraph that is opened gets one. There is a preamble just when a
sentence comes before the first of these headers, or when a paragraph or a list is opened before it,
whether text comes or not. -/
theorem compile_opens (ctx : Context) (name : Text) (tree : Node)
    (h : ∀ level ∈ tree.headerLevels, 1 ≤ level) :
    ((∀ s ∈ (compile ctx name tree).1.sections, ∀ p ∈ s.paragraphs, p.sentences ≠ []) ↔
      fillsAll tree.allActs = true) ∧
    ((∃ s ∈ (compile ctx name tree).1.sections, s.isPreamble = true) ↔
      released ctx [] (lead tree.allActs) ≠ [] ∨
        .paragraph ∈ lead tree.allActs ∨ .list ∈ lead tree.allActs) := by
  constructor
  · have hblank := Sketch.blank_mem_foldl_take {} tree.allActs
    rw [← slots_compile ctx name, Document.blank_mem_slots] at hblank
    rw [← not_iff_not, Bool.not_eq_true]
    simpa using hblank
  · have hlevels : ∀ level, .header level ∈ tree.allActs → 1 ≤ level := by
      intro level hlevel
      rw [Node.allActs, List.mem_append] at hlevel
      obtain hlevel | hlevel := hlevel
      · exact h level (tree.mem_headerLevels_of_acts hlevel).2
      · simp at hlevel
    rw [← Document.preamble_mem_slots, slots_compile]
    exact Sketch.preamble_mem_foldl_take_of_nil ctx rfl (by simp [extract_eq_nil_iff]) hlevels

/-- An image among text in front of a header. -/
theorem compile_opens_of_image_in_text :
    let ctx : Context := ⟨.ofText "![logo](a.png) Intro.\n\n# Title\n".toList, .fullStop⟩
    let tree : Node := .container .root [
      .container .paragraph [.leaf (.omitted .image), .text 14 " Intro.".toList],
      .container (.header 1) [.text 25 "Title".toList]]
    (∀ level ∈ tree.headerLevels, 1 ≤ level) ∧
    (∀ s ∈ (compile ctx [] tree).1.sections, ∀ p ∈ s.paragraphs, p.sentences ≠ []) ∧
    ∃ s ∈ (compile ctx [] tree).1.sections, s.isPreamble = true := by
  intro ctx tree
  have hlevels : ∀ level ∈ tree.headerLevels, 1 ≤ level := by decide
  obtain ⟨hparagraphs, hpreamble⟩ := compile_opens ctx [] tree hlevels
  exact ⟨hlevels, hparagraphs.mpr (by decide), hpreamble.mpr (.inr (.inl (by decide)))⟩

/-- An image alone in front of a header leaves a paragraph without a sentence, in a preamble that
no sentence has come for. -/
theorem image_leaves_paragraph_and_preamble :
    let ctx : Context := ⟨.ofText "![logo](a.png)\n\n# Title\n".toList, .fullStop⟩
    let tree : Node := .container .root [.container .paragraph [.leaf (.omitted .image)],
      .container (.header 1) [.text 18 "Title".toList]]
    (∀ level ∈ tree.headerLevels, 1 ≤ level) ∧
    ¬ (∀ s ∈ (compile ctx [] tree).1.sections, ∀ p ∈ s.paragraphs, p.sentences ≠ []) ∧
    ¬ ((∃ s ∈ (compile ctx [] tree).1.sections, s.isPreamble = true) ↔
      released ctx [] (lead tree.allActs) ≠ []) := by
  intro ctx tree
  have hslots : (compile ctx [] tree).1.slots = [.preamble, .blank, .headed] :=
    (slots_compile ctx [] tree).trans (by decide)
  have hblank : .blank ∈ (compile ctx [] tree).1.slots := by simp [hslots]
  have hpreamble : .preamble ∈ (compile ctx [] tree).1.slots := by simp [hslots]
  refine ⟨by decide, fun h => ?_, fun h => ?_⟩
  · obtain ⟨s, hs, p, hp, hnil⟩ := Document.blank_mem_slots.mp hblank
    exact h s hs p hp hnil
  · have hreleased : released ctx [] (lead tree.allActs) = [] := by cbv
    exact h.mp (Document.preamble_mem_slots.mp hpreamble) hreleased

end ProseLint.Markup
