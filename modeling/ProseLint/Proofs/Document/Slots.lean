import ProseLint.Proofs.Document.Prose

/-!
# The slots of a document

What a document consists of when its text is left aside: section after section, whether it is a
preamble, and behind that what each of its blocks is. A paragraph without sentences is blank. The
slots are a plain sequence, and each building operation changes them at the end only, whichever
section that is in.
-/
namespace ProseLint

/-- What a section or a block is. -/
inductive Slot where
  | preamble
  | headed
  | blank
  | filled
  | list
  deriving DecidableEq, Repr

namespace Slot

/-- The slots of a document that has a section. -/
def start (slots : List Slot) : List Slot := if slots.isEmpty then [preamble] else slots

def addSentence (slots : List Slot) : List Slot :=
  match slots.getLast? with
  | some .blank => slots.dropLast ++ [filled]
  | some .filled => slots
  | _ => slots ++ [filled]

def addElement (slots : List Slot) : List Slot :=
  match slots.getLast? with
  | some .list => slots
  | _ => slots ++ [list]

/-- A change that sees the last slot only, and keeps all others. -/
def AtEnd (g : List Slot → List Slot) : Prop :=
  ∀ slots last, g (slots ++ [last]) = slots ++ g [last]

theorem atEnd_concat (new : Slot) : AtEnd (· ++ [new]) :=
  fun slots last => List.append_assoc slots [last] _

theorem atEnd_addSentence : AtEnd addSentence := by
  intro slots last
  cases last <;> simp [addSentence]

theorem atEnd_addElement : AtEnd addElement := by
  intro slots last
  cases last <;> simp [addElement]

theorem AtEnd.append {g : List Slot → List Slot} (h : AtEnd g) (front : List Slot)
    {slots : List Slot} (hslots : slots ≠ []) : g (front ++ slots) = front ++ g slots := by
  obtain rfl | ⟨init, last, rfl⟩ := List.eq_nil_or_concat' slots
  · exact absurd rfl hslots
  · rw [← List.append_assoc, h, h, List.append_assoc]

theorem start_of_ne_nil {slots : List Slot} (h : slots ≠ []) : start slots = slots := by
  simp [start, h]

theorem addSentence_ne_nil (slots : List Slot) : addSentence slots ≠ [] := by
  obtain rfl | ⟨init, last, rfl⟩ := List.eq_nil_or_concat' slots
  · simp [addSentence]
  · rw [atEnd_addSentence]
    cases last <;> simp [addSentence]

theorem addElement_ne_nil (slots : List Slot) : addElement slots ≠ [] := by
  obtain rfl | ⟨init, last, rfl⟩ := List.eq_nil_or_concat' slots
  · simp [addElement]
  · rw [atEnd_addElement]
    cases last <;> simp [addElement]

/-- A paragraph that has a sentence takes more of them without another slot. -/
theorem addSentence_addSentence (slots : List Slot) :
    addSentence (addSentence slots) = addSentence slots := by
  obtain rfl | ⟨init, last, rfl⟩ := List.eq_nil_or_concat' slots
  · simp [addSentence]
  · cases last <;> simp [addSentence]

section

variable {slots : List Slot}

theorem mem_iff_dropLast {a : Slot} :
    a ∈ slots ↔ a ∈ slots.dropLast ∨ slots.getLast? = some a := by
  obtain rfl | ⟨init, last, rfl⟩ := List.eq_nil_or_concat' slots
  · simp
  · simp [eq_comm]

theorem blank_mem_start : blank ∈ start slots ↔ blank ∈ slots := by
  cases slots <;> simp [start]

@[simp] theorem getLast?_addSentence : (addSentence slots).getLast? = some filled := by
  obtain rfl | ⟨init, last, rfl⟩ := List.eq_nil_or_concat' slots
  · simp [addSentence]
  · cases last <;> simp [addSentence]

/-- The paragraph that the sentence goes to is not blank, and all others are as they were. -/
theorem blank_mem_addSentence : blank ∈ addSentence (start slots) ↔ blank ∈ slots.dropLast := by
  obtain rfl | ⟨init, last, rfl⟩ := List.eq_nil_or_concat' slots
  · simp [addSentence, start]
  · cases last <;> simp [addSentence, start]

theorem blank_mem_dropLast_addSentence :
    blank ∈ (addSentence (start slots)).dropLast ↔ blank ∈ slots.dropLast := by
  have hmem := @mem_iff_dropLast (addSentence (start slots)) blank
  rw [blank_mem_addSentence, getLast?_addSentence] at hmem
  simpa using hmem.symm

@[simp] theorem getLast?_addElement : (addElement slots).getLast? = some list := by
  obtain rfl | ⟨init, last, rfl⟩ := List.eq_nil_or_concat' slots
  · simp [addElement]
  · cases last <;> simp [addElement]

theorem blank_mem_dropLast_addElement :
    blank ∈ (addElement (start slots)).dropLast ↔ blank ∈ slots := by
  obtain rfl | ⟨init, last, rfl⟩ := List.eq_nil_or_concat' slots
  · simp [addElement, start]
  · cases last <;> simp [addElement, start]

theorem preamble_mem_addSentence : preamble ∈ addSentence slots ↔ preamble ∈ slots := by
  obtain rfl | ⟨init, last, rfl⟩ := List.eq_nil_or_concat' slots
  · simp [addSentence]
  · cases last <;> simp [addSentence]

theorem preamble_mem_addElement : preamble ∈ addElement slots ↔ preamble ∈ slots := by
  obtain rfl | ⟨init, last, rfl⟩ := List.eq_nil_or_concat' slots
  · simp [addElement]
  · cases last <;> simp [addElement]

end

end Slot

def Block.slot : Block → Slot
  | paragraph p => if p.sentences.isEmpty then .blank else .filled
  | list _ => .list

namespace Section

variable {s : Section}

def slot (s : Section) : Slot := if s.isPreamble then .preamble else .headed

theorem slot_eq (s : Section) : s.slot = .preamble ∨ s.slot = .headed := by
  unfold slot
  split
  · exact .inl rfl
  · exact .inr rfl

/-- The slot of a section and those of its blocks. -/
def slots (s : Section) : List Slot := s.slot :: s.blocks.map Block.slot

theorem slots_pushBlock (b : Block) (s : Section) :
    (s.pushBlock b).slots = s.slots ++ [b.slot] := by
  simp [slots, slot, isPreamble, pushBlock]

/-- Where the last block is exchanged, so is the last slot. -/
theorem exists_slots_modifyLastBlock {b : Block} (b' : Block)
    (hlast : s.blocks.getLast? = some b) : ∃ front, s.slots = front ++ [b.slot] ∧
      (s.modifyLastBlock fun _ => b').slots = front ++ [b'.slot] := by
  obtain ⟨init, hinit⟩ := List.getLast?_eq_some_iff.mp hlast
  refine ⟨s.slot :: init.map Block.slot, by simp [slots, hinit], ?_⟩
  have hslot : (s.modifyLastBlock fun _ => b').slot = s.slot := rfl
  rw [slots, hslot, blocks_modifyLastBlock hinit]
  simp

/-- The section ends in a block of this kind, or it has no block. -/
theorem slots_getLast? (s : Section) :
    s.slots.getLast? = some ((s.blocks.getLast?.map Block.slot).getD s.slot) := by
  rw [slots, List.getLast?_cons, List.getLast?_map]

theorem slots_addSentence (x : Sentence) (s : Section) :
    (s.addSentence x).slots = Slot.addSentence s.slots := by
  unfold Section.addSentence
  split
  · rename_i p hp
    obtain ⟨front, hs, hs'⟩ := exists_slots_modifyLastBlock (.paragraph { p with
      sentences := p.sentences ++ [{ x with isFirst := p.sentences.isEmpty }] }) hp
    rw [hs', hs, Slot.atEnd_addSentence]
    cases hsentences : p.sentences <;> simp [Block.slot, Slot.addSentence, hsentences]
  · rename_i hnot
    rw [slots_pushBlock, Slot.addSentence, slots_getLast?]
    cases hlast : s.blocks.getLast? with
    | none => rcases s.slot_eq with h | h <;> simp [h, Block.slot]
    | some b =>
      cases b with
      | paragraph p => exact absurd hlast (hnot p)
      | list es => rfl

theorem slots_setIndent (indent : Text) (s : Section) : (s.setIndent indent).slots = s.slots := by
  unfold Section.setIndent
  split
  · rename_i p hp
    obtain ⟨front, hs, hs'⟩ :=
      exists_slots_modifyLastBlock (.paragraph { p with indent := indent }) hp
    exact hs'.trans hs.symm
  · rfl

theorem slots_addElement (e : ListElement) (s : Section) :
    (s.addElement e).slots = Slot.addElement s.slots := by
  unfold Section.addElement
  split
  · rename_i es hes
    obtain ⟨front, hs, hs'⟩ := exists_slots_modifyLastBlock (.list (es ++ [e])) hes
    rw [hs', hs, Slot.atEnd_addElement]
    rfl
  · rename_i hnot
    rw [slots_pushBlock, Slot.addElement, slots_getLast?]
    cases hlast : s.blocks.getLast? with
    | none => rcases s.slot_eq with h | h <;> simp [h, Block.slot]
    | some b =>
      cases b with
      | paragraph p =>
        cases hsentences : p.sentences <;> simp [Block.slot, hsentences]
      | list es => exact absurd hlast (hnot es)

end Section

namespace Document

variable {d : Document}

def slots (d : Document) : List Slot := d.sections.flatMap Section.slots

theorem slots_eq_nil_iff : d.slots = [] ↔ d.sections = [] := by
  cases h : d.sections <;> simp [slots, Section.slots, h]

theorem slots_addSection (level : ℕ) (header : List Sentence) (d : Document) :
    (d.addSection level header).slots =
      d.slots ++ [if level = 0 ∧ header = [] then .preamble else .headed] := by
  cases header <;> simp [slots, addSection, Section.slots, Section.slot, Section.isPreamble]

theorem slots_addRoot (i : ℕ) (d : Document) : (d.addRoot i).slots = d.slots := rfl

theorem slots_attachChild (parent child : ℕ) (d : Document) :
    (d.attachChild parent child).slots = d.slots := by
  simp only [slots, attachChild, List.flatMap]
  rw [map_modify_of_forall, map_modify_of_forall] <;> exact fun _ => rfl

theorem slots_withSection (d : Document) : d.withSection.slots = Slot.start d.slots := by
  unfold withSection
  split
  · rename_i hempty
    have hnil : d.slots = [] := slots_eq_nil_iff.mpr (List.isEmpty_iff.mp hempty)
    rw [slots_addRoot, slots_addSection, hnil]
    rfl
  · rename_i hne
    have hne : d.slots ≠ [] := by simpa [slots_eq_nil_iff] using hne
    rw [Slot.start_of_ne_nil hne]

/-- What the current section becomes, the end of the document becomes. -/
theorem slots_modifyCurrent {f : Section → Section} {g : List Slot → List Slot} (hg : Slot.AtEnd g)
    (hf : ∀ s, (f s).slots = g s.slots) (d : Document) :
    (d.modifyCurrent f).slots = g (Slot.start d.slots) := by
  obtain hnil | ⟨init, s, hinit⟩ := List.eq_nil_or_concat' d.withSection.sections
  · exact absurd hnil d.sections_withSection_ne_nil
  · have hs : s.slots ≠ [] := by simp [Section.slots]
    rw [← slots_withSection, slots, modifyCurrent, slots, hinit]
    simp [hf, hg.append _ hs]

theorem slots_addParagraph (d : Document) : d.addParagraph.slots = Slot.start d.slots ++ [.blank] :=
  slots_modifyCurrent (Slot.atEnd_concat .blank) (Section.slots_pushBlock (.paragraph {})) d

theorem slots_addList (d : Document) : d.addList.slots = Slot.start d.slots ++ [.list] :=
  slots_modifyCurrent (Slot.atEnd_concat .list) (Section.slots_pushBlock (.list [])) d

theorem slots_setIndent (indent : Text) (d : Document) :
    (d.setIndent indent).slots = Slot.start d.slots :=
  slots_modifyCurrent (g := id) (fun _ _ => rfl) (Section.slots_setIndent indent) d

theorem slots_addElement (level : ℕ) (ss : List Sentence) (d : Document) :
    (d.addElement level ss).slots = Slot.addElement (Slot.start d.slots) :=
  slots_modifyCurrent Slot.atEnd_addElement (Section.slots_addElement ⟨level, ss⟩) d

theorem slots_addSentence (x : Sentence) (d : Document) :
    (d.addSentence x).slots = Slot.addSentence (Slot.start d.slots) :=
  slots_modifyCurrent Slot.atEnd_addSentence (Section.slots_addSentence x) d

/-- Any number of sentences, but for none, leave the same slots. -/
theorem slots_foldl_addSentence {ss : List Sentence} (hss : ss ≠ []) (d : Document) :
    (ss.foldl (fun d x => d.addSentence x) d).slots = Slot.addSentence (Slot.start d.slots) := by
  induction ss generalizing d with
  | nil => exact absurd rfl hss
  | cons x ss ih =>
    rw [List.foldl_cons]
    cases ss with
    | nil => exact slots_addSentence x d
    | cons y ss =>
      rw [ih (List.cons_ne_nil y ss), slots_addSentence,
        Slot.start_of_ne_nil (Slot.addSentence_ne_nil _), Slot.addSentence_addSentence]

theorem preamble_mem_slots :
    .preamble ∈ d.slots ↔ ∃ s ∈ d.sections, s.isPreamble = true := by
  have hblock : ∀ b : Block, Slot.preamble ≠ b.slot := by
    intro b
    cases b with
    | paragraph p => cases h : p.sentences <;> simp [Block.slot, h]
    | list es => simp [Block.slot]
  simp only [slots, List.mem_flatMap, Section.slots, List.mem_cons, List.mem_map]
  refine exists_congr fun s => and_congr_right fun _ => ?_
  constructor
  · rintro (h | ⟨b, -, h⟩)
    · by_contra hne
      simp [Section.slot, hne] at h
    · exact absurd h.symm (hblock b)
  · intro h
    simp [Section.slot, h]

theorem blank_mem_slots :
    .blank ∈ d.slots ↔ ∃ s ∈ d.sections, ∃ p ∈ s.paragraphs, p.sentences = [] := by
  simp only [slots, List.mem_flatMap, Section.slots, List.mem_cons, List.mem_map,
    Section.paragraphs, List.mem_filterMap]
  refine exists_congr fun s => and_congr_right fun _ => ?_
  have hslot : Slot.blank ≠ s.slot := by
    rcases s.slot_eq with h | h <;> simp [h]
  constructor
  · rintro (h | ⟨b, hb, h⟩)
    · exact absurd h hslot
    · cases b with
      | paragraph p =>
        refine ⟨p, ⟨_, hb, rfl⟩, ?_⟩
        by_contra hne
        simp [Block.slot, hne] at h
      | list es => simp [Block.slot] at h
  · rintro ⟨p, ⟨b, hb, hp⟩, hnil⟩
    refine .inr ⟨b, hb, ?_⟩
    cases b with
    | paragraph q =>
      obtain rfl : q = p := by simpa [Block.paragraph?] using hp
      simp [Block.slot, hnil]
    | list es => simp [Block.paragraph?] at hp

end Document
end ProseLint
