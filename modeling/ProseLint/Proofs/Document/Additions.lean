import ProseLint.Proofs.Document.Building
import ProseLint.Proofs.Document.Flags

/-!
# What building steps add to a section

No step touches the body of a section but that of the latest one. So a section is what the steps
taken while it was the latest make of it without its blocks, and its blocks consist of the sentences
and elements that these steps add, in their order. In each paragraph the first sentence is flagged
as such, and no other one, however the sentences of headers and elements are flagged.
-/
namespace ProseLint

/-- What a paragraph or a list consists of; the flag of a sentence is the paragraph's. -/
inductive Piece where
  | sentence (x : Sentence)
  | element (e : ListElement)
  deriving DecidableEq, Repr

namespace Piece

/-- The sentences of a piece without their flags. -/
def sentences : Piece → List Sentence
  | sentence x => [x.unflagged]
  | element e => e.sentences.map Sentence.unflagged

end Piece

/-- In a paragraph the first sentence is flagged and no other one. -/
def Block.FlagsOpening : Block → Prop
  | paragraph p => FlagsFirst p.sentences
  | list _ => True

def Block.pieces : Block → List Piece
  | paragraph p => p.sentences.map fun x => .sentence x.unflagged
  | list es => es.map .element

theorem Block.sentences_pieces (b : Block) :
    b.pieces.flatMap Piece.sentences = b.sentences.map Sentence.unflagged := by
  cases b with
  | paragraph p =>
    rw [pieces, List.flatMap_map, sentences, List.map_eq_flatMap]
    rfl
  | list es =>
    rw [pieces, List.flatMap_map, sentences, List.map_flatMap]
    rfl

namespace Section

variable {s s' : Section} {b : Block}

def pieces (s : Section) : List Piece := s.blocks.flatMap Block.pieces

theorem sentences_pieces (s : Section) :
    s.pieces.flatMap Piece.sentences = s.bodySentences.map Sentence.unflagged := by
  rw [pieces, List.flatMap_assoc, bodySentences, List.map_flatMap]
  exact List.flatMap_congr fun b _ => b.sentences_pieces

theorem pieces_pushBlock (b : Block) (s : Section) :
    (s.pushBlock b).pieces = s.pieces ++ b.pieces := by
  simp [pieces, pushBlock]

theorem pieces_modifyLastBlock {b' : Block} {new : List Piece} (hb : s.blocks.getLast? = some b)
    (hb' : b'.pieces = b.pieces ++ new) :
    (s.modifyLastBlock fun _ => b').pieces = s.pieces ++ new := by
  obtain ⟨init, hinit⟩ := List.getLast?_eq_some_iff.mp hb
  simp [pieces, blocks_modifyLastBlock hinit, hinit, hb']

theorem pieces_addSentence (x : Sentence) (s : Section) :
    (s.addSentence x).pieces = s.pieces ++ [.sentence x.unflagged] := by
  unfold addSentence
  split
  · rename_i p hp
    exact pieces_modifyLastBlock hp (by simp [Block.pieces, Sentence.unflagged])
  · rw [pieces_pushBlock]
    rfl

theorem pieces_setIndent (indent : Text) (s : Section) :
    (s.setIndent indent).pieces = s.pieces := by
  unfold setIndent
  split
  · rename_i p hp
    have hset : (s.modifyLastBlock fun _ => .paragraph { p with indent := indent }).pieces =
        s.pieces ++ [] := pieces_modifyLastBlock hp (List.append_nil _).symm
    rwa [List.append_nil] at hset
  · rfl

theorem pieces_addElement (e : ListElement) (s : Section) :
    (s.addElement e).pieces = s.pieces ++ [.element e] := by
  unfold addElement
  split
  · rename_i es hes
    exact pieces_modifyLastBlock hes (by simp [Block.pieces])
  · rw [pieces_pushBlock]
    rfl

/-- In each paragraph the first sentence is flagged and no other one. -/
def FlagsOpenings (s : Section) : Prop := ∀ b ∈ s.blocks, b.FlagsOpening

namespace FlagsOpenings

theorem pushBlock (h : s.FlagsOpenings) (hb : b.FlagsOpening) : (s.pushBlock b).FlagsOpenings :=
  List.forall_mem_append.mpr ⟨h, List.forall_mem_singleton.mpr hb⟩

theorem addSentence (h : s.FlagsOpenings) (x : Sentence) : (s.addSentence x).FlagsOpenings := by
  unfold Section.addSentence
  split
  · rename_i p hp
    have hflags : FlagsFirst p.sentences := h _ (List.mem_of_getLast? hp)
    exact forall_mem_modifyLastBlock h (hflags.concat x)
  · exact h.pushBlock (flagsFirst_nil.concat x)

theorem setIndent (h : s.FlagsOpenings) (indent : Text) : (s.setIndent indent).FlagsOpenings := by
  unfold Section.setIndent
  split
  · rename_i p hp
    have hflags : FlagsFirst p.sentences := h _ (List.mem_of_getLast? hp)
    exact forall_mem_modifyLastBlock h hflags
  · exact h

theorem addElement (h : s.FlagsOpenings) (e : ListElement) : (s.addElement e).FlagsOpenings := by
  unfold Section.addElement
  split
  · exact forall_mem_modifyLastBlock h trivial
  · exact h.pushBlock trivial

theorem of_mem_paragraphs (h : s.FlagsOpenings) {p : Paragraph} (hp : p ∈ s.paragraphs) :
    FlagsFirst p.sentences := by
  obtain ⟨b, hb, hbp⟩ := List.mem_filterMap.mp hp
  cases b with
  | paragraph q =>
    obtain rfl := Option.some.inj hbp
    exact h _ hb
  | list es => cases hbp

end FlagsOpenings

theorem ext_frame (hframe : s.frame = s'.frame) (hblocks : s.blocks = s'.blocks) : s = s' := by
  obtain ⟨level, header, blocks, parent, children⟩ := s
  obtain ⟨level', header', blocks', parent', children'⟩ := s'
  simp_all [frame]

end Section

namespace Document

namespace BuildStep

/-- What a step does to the latest section. -/
def edit : BuildStep → Section → Section
  | addSection _ _ | addRoot _ | attachChild _ _ => id
  | addParagraph => Section.pushBlock (.paragraph {})
  | addSentence x => Section.addSentence x
  | setIndent indent => Section.setIndent indent
  | addList => Section.pushBlock (.list [])
  | addElement level sentences => Section.addElement ⟨level, sentences⟩

/-- The piece that a step adds. -/
def piece? : BuildStep → Option Piece
  | addSentence x => some (.sentence x.unflagged)
  | addElement level sentences => some (.element ⟨level, sentences⟩)
  | _ => none

/-- The sentences that a step adds to the body of a section. -/
def sentences : BuildStep → List Sentence
  | addSentence x => [x]
  | addElement _ sentences => sentences
  | _ => []

/-- The headers of the sections that a step makes; that of a preamble is empty. -/
def headers (d : Document) : BuildStep → List (List Sentence)
  | addSection _ header => [openHeader header]
  | addRoot _ | attachChild _ _ => []
  | addParagraph | addSentence _ | setIndent _ | addList | addElement _ _ =>
    if d.sections.isEmpty then [[]] else []

theorem sentences_piece? (step : BuildStep) :
    step.piece?.toList.flatMap Piece.sentences = step.sentences.map Sentence.unflagged := by
  cases step <;> simp [piece?, sentences, Piece.sentences, Sentence.unflagged]

section

variable (step : BuildStep) (s : Section)

theorem frame_edit : (step.edit s).frame = s.frame := by
  cases step with
  | addSection | addRoot | attachChild => rfl
  | addParagraph | addList => exact Section.frame_pushBlock _ s
  | addSentence x => exact Section.frame_addSentence x s
  | setIndent indent => exact Section.frame_setIndent indent s
  | addElement => exact Section.frame_addElement _ s

theorem pieces_edit : (step.edit s).pieces = s.pieces ++ step.piece?.toList := by
  cases step with
  | addSection | addRoot | attachChild => exact (List.append_nil _).symm
  | addParagraph | addList => exact Section.pieces_pushBlock _ s
  | addSentence x => exact Section.pieces_addSentence x s
  | setIndent indent => exact (Section.pieces_setIndent indent s).trans (List.append_nil _).symm
  | addElement => exact Section.pieces_addElement _ s

theorem flagsOpenings_edit (h : s.FlagsOpenings) : (step.edit s).FlagsOpenings := by
  cases step with
  | addSection | addRoot | attachChild => exact h
  | addParagraph => exact h.pushBlock flagsFirst_nil
  | addList => exact h.pushBlock trivial
  | addSentence x => exact h.addSentence x
  | setIndent indent => exact h.setIndent indent
  | addElement => exact h.addElement _

end

/-- What a step makes of the blocks depends on the blocks only. -/
theorem blocks_edit_congr {s s' : Section} (h : s.blocks = s'.blocks) (step : BuildStep) :
    (step.edit s).blocks = (step.edit s').blocks := by
  cases step with
  | addSection | addRoot | attachChild => exact h
  | addParagraph | addList => simp [edit, Section.pushBlock, h]
  | addSentence x =>
    simp only [edit, Section.addSentence, h]
    split <;> simp [Section.modifyLastBlock, Section.pushBlock, h]
  | setIndent indent =>
    simp only [edit, Section.setIndent, h]
    split <;> simp [Section.modifyLastBlock, h]
  | addElement =>
    simp only [edit, Section.addElement, h]
    split <;> simp [Section.modifyLastBlock, Section.pushBlock, h]

end BuildStep

/-- What steps do to a section that is the latest all the time. -/
def edits (steps : List BuildStep) (s : Section) : Section :=
  steps.foldl (fun s step => step.edit s) s

section

variable (steps : List BuildStep) (s : Section)

theorem frame_edits : (edits steps s).frame = s.frame := by
  induction steps generalizing s with
  | nil => rfl
  | cons step steps ih => exact (ih (step.edit s)).trans (step.frame_edit s)

theorem pieces_edits : (edits steps s).pieces = s.pieces ++ steps.filterMap BuildStep.piece? := by
  induction steps generalizing s with
  | nil => exact (List.append_nil _).symm
  | cons step steps ih =>
    rw [edits, List.foldl_cons, ← edits, ih, step.pieces_edit, List.append_assoc]
    cases hpiece : step.piece? <;> simp [hpiece]

theorem flagsOpenings_edits (h : s.FlagsOpenings) : (edits steps s).FlagsOpenings := by
  induction steps generalizing s with
  | nil => exact h
  | cons step steps ih => exact ih (step.edit s) (step.flagsOpenings_edit s h)

end

def blocksOf (d : Document) (i : ℕ) : List Block := ((d.sections[i]?).map Section.blocks).getD []

/-- The steps, taken from a document on, behind which section `i` is the latest. -/
def stepsAt (i : ℕ) (d : Document) : List BuildStep → List BuildStep
  | [] => []
  | step :: steps =>
    if (step.apply d).lastSection? = some i then step :: stepsAt i (step.apply d) steps
    else stepsAt i (step.apply d) steps

section

variable (d : Document) (i : ℕ)

theorem blocksOf_addSection (level : ℕ) (header : List Sentence) :
    (d.addSection level header).blocksOf i = d.blocksOf i := by
  rw [blocksOf, getElem?_addSection, blocksOf]
  split
  · rename_i hi
    rw [hi, List.getElem?_eq_none le_rfl]
    rfl
  · rfl

theorem blocksOf_attachChild (parent child : ℕ) :
    (d.attachChild parent child).blocksOf i = d.blocksOf i := by
  rw [blocksOf, getElem?_attachChild, blocksOf, Option.map_map]
  rfl

theorem blocksOf_withSection : d.withSection.blocksOf i = d.blocksOf i := by
  unfold withSection
  split
  · exact d.blocksOf_addSection i 0 []
  · rfl

/-- A change of the current section is one of the latest section. -/
theorem exists_blocksOf_modifyCurrent (f : Section → Section) :
    ∃ s : Section, s.blocks = d.blocksOf i ∧ (d.modifyCurrent f).blocksOf i =
      if (d.modifyCurrent f).lastSection? = some i then (f s).blocks else d.blocksOf i := by
  obtain hnil | ⟨init, s, hinit⟩ := List.eq_nil_or_concat' d.withSection.sections
  · exact absurd hnil d.sections_withSection_ne_nil
  have hsections : (d.modifyCurrent f).sections = init ++ [f s] := by
    simp [modifyCurrent, hinit]
  have hlast : (d.modifyCurrent f).lastSection? = some init.length := by
    simp [lastSection?, hsections]
  rw [← d.blocksOf_withSection, hlast, blocksOf, blocksOf, hinit, hsections]
  by_cases hi : init.length = i
  · subst hi
    exact ⟨s, by simp, by simp⟩
  · -- Nothing is changed there, so any section with these blocks will do.
    refine ⟨{ s with blocks := (((init ++ [s])[i]?).map Section.blocks).getD [] }, rfl, ?_⟩
    rw [if_neg (by simpa using hi)]
    rcases lt_or_gt_of_ne hi with hlt | hlt
    · rw [List.getElem?_eq_none (by simpa using hlt), List.getElem?_eq_none (by simpa using hlt)]
    · rw [List.getElem?_append_left hlt, List.getElem?_append_left hlt]

end

variable {d : Document} {s : Section} {i : ℕ}

/-- A step edits the section that is the latest behind it, and no other one. -/
theorem blocksOf_apply (hs : s.blocks = d.blocksOf i) (step : BuildStep) :
    (step.apply d).blocksOf i =
      if (step.apply d).lastSection? = some i then (step.edit s).blocks else d.blocksOf i := by
  have hcurrent : step.apply d = d.modifyCurrent step.edit → (step.apply d).blocksOf i =
      if (step.apply d).lastSection? = some i then (step.edit s).blocks else d.blocksOf i := by
    intro h
    obtain ⟨s', hs', hblocks⟩ := d.exists_blocksOf_modifyCurrent i step.edit
    rw [h, hblocks, BuildStep.blocks_edit_congr (hs.trans hs'.symm)]
  cases step with
  | addSection level header =>
    rw [BuildStep.edit, id_eq, hs, ite_self]
    exact d.blocksOf_addSection i level header
  | addRoot =>
    rw [BuildStep.edit, id_eq, hs, ite_self]
    rfl
  | attachChild parent child =>
    rw [BuildStep.edit, id_eq, hs, ite_self]
    exact d.blocksOf_attachChild i parent child
  | addParagraph | addSentence | setIndent | addList | addElement => exact hcurrent rfl

theorem blocksOf_foldl (hs : s.blocks = d.blocksOf i) (steps : List BuildStep) :
    (steps.foldl BuildStep.apply d).blocksOf i = (edits (stepsAt i d steps) s).blocks := by
  -- The section that is edited alone keeps the blocks of section `i` of the document.
  induction steps generalizing d s with
  | nil => exact hs.symm
  | cons step steps ih =>
    have hstep := blocksOf_apply hs step
    rw [List.foldl_cons, stepsAt]
    split
    · rename_i hlast
      rw [if_pos hlast] at hstep
      exact ih hstep.symm
    · rename_i hlast
      rw [if_neg hlast] at hstep
      exact ih (hs.trans hstep.symm)

/-- A section is what the steps taken while it was the latest make of it without its blocks. -/
theorem edits_stepsAt {name : Text} {steps : List BuildStep}
    (hs : (build name steps).sections[i]? = some s) :
    edits (stepsAt i { name := name } steps) s.frame = s := by
  have hblocks : (build name steps).blocksOf i = s.blocks := by
    rw [blocksOf, hs]
    rfl
  have hrun := blocksOf_foldl (d := { name := name }) (i := i) (s := s.frame) rfl steps
  exact Section.ext_frame (frame_edits _ _) (hrun.symm.trans hblocks)

/-- The headers of the sections that steps make from a document on. -/
def headersFrom (d : Document) : List BuildStep → List (List Sentence)
  | [] => []
  | step :: steps => step.headers d ++ headersFrom (step.apply d) steps

theorem headers_frame (d : Document) :
    d.frame.sections.map Section.header = d.sections.map Section.header := by
  simp [frame, Function.comp_def, Section.frame]

theorem headers_modifyCurrent {f : Section → Section} (hf : ∀ s, (f s).frame = s.frame)
    (d : Document) : (d.modifyCurrent f).sections.map Section.header =
      d.sections.map Section.header ++ if d.sections.isEmpty then [[]] else [] := by
  rw [← headers_frame, frame_modifyCurrent hf, headers_frame, withSection]
  split <;> simp [addSection, addRoot]

theorem headers_apply (step : BuildStep) (d : Document) :
    (step.apply d).sections.map Section.header =
      d.sections.map Section.header ++ step.headers d := by
  have hcurrent : step.apply d = d.modifyCurrent step.edit →
      step.headers d = (if d.sections.isEmpty then [[]] else []) →
      (step.apply d).sections.map Section.header =
        d.sections.map Section.header ++ step.headers d := by
    intro happly hheaders
    rw [happly, hheaders, headers_modifyCurrent step.frame_edit]
  cases step with
  | addSection level header => simp [BuildStep.apply, addSection, BuildStep.headers, openHeader]
  | addRoot => exact (List.append_nil _).symm
  | attachChild parent child =>
    rw [BuildStep.apply, attachChild, map_modify_of_forall, map_modify_of_forall]
    · exact (List.append_nil _).symm
    all_goals exact fun _ => rfl
  | addParagraph | addSentence | setIndent | addList | addElement => exact hcurrent rfl rfl

theorem headers_foldl (steps : List BuildStep) (d : Document) :
    (steps.foldl BuildStep.apply d).sections.map Section.header =
      d.sections.map Section.header ++ headersFrom d steps := by
  induction steps generalizing d with
  | nil => exact (List.append_nil _).symm
  | cons step steps ih =>
    rw [List.foldl_cons, ih, headers_apply, headersFrom, List.append_assoc]

end Document
end ProseLint
