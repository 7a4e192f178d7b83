import ProseLint.Proofs.Document.Nesting
import ProseLint.Proofs.Sentence.Weave

/-!
# The prose of a document under construction

The sentences in the order in which the sections were made. Each building operation adds its
sentences at the end and changes nothing before it but the flags of first sentences. The prose is
what these sentences say and the lines on which they begin.
-/
namespace ProseLint

@[simp] theorem modify_length_append {α : Type*} (f : α → α) (l : List α) (a : α) :
    (l ++ [a]).modify l.length f = l ++ [f a] := by
  simp [List.modify_eq_take_drop]

/-- The sentence without the flag that its place in the document decides. -/
def Sentence.unflagged (s : Sentence) : Sentence := { s with isFirst := false }

@[simp] theorem Sentence.body_unflagged (s : Sentence) : s.unflagged.body = s.body := rfl

namespace Section

variable {s : Section} {b : Block}

/-- The contents and lines of the sentences of a section. -/
def prose (s : Section) : List (Text × ℕ) := s.sentences.map Sentence.body

/-- The sentences of a section as they were added. -/
def added (s : Section) : List Sentence := s.sentences.map Sentence.unflagged

theorem added_pushBlock (b : Block) (s : Section) :
    (s.pushBlock b).added = s.added ++ b.sentences.map Sentence.unflagged := by
  simp [added, sentences, bodySentences, pushBlock]

theorem blocks_modifyLastBlock {init : List Block} (h : s.blocks = init ++ [b])
    (f : Block → Block) : (s.modifyLastBlock f).blocks = init ++ [f b] := by
  simp [modifyLastBlock, h]

/-- A change of the last block shows at the end. -/
theorem added_modifyLastBlock {f : Block → Block} {new : List Sentence}
    (hb : s.blocks.getLast? = some b)
    (hf : (f b).sentences.map Sentence.unflagged = b.sentences.map Sentence.unflagged ++ new) :
    (s.modifyLastBlock f).added = s.added ++ new := by
  obtain ⟨init, hinit⟩ := List.getLast?_eq_some_iff.mp hb
  simp [added, sentences, bodySentences, modifyLastBlock, hinit, hf]

@[simp] theorem added_addSentence (x : Sentence) (s : Section) :
    (s.addSentence x).added = s.added ++ [x.unflagged] := by
  unfold addSentence
  split
  · rename_i p hp
    exact added_modifyLastBlock hp (by simp [Block.sentences, Sentence.unflagged])
  · simp [added_pushBlock, Block.sentences, Sentence.unflagged]

@[simp] theorem added_setIndent (indent : Text) (s : Section) :
    (s.setIndent indent).added = s.added := by
  unfold setIndent
  split
  · rename_i p hp
    rw [added_modifyLastBlock hp (List.append_nil _).symm, List.append_nil]
  · rfl

@[simp] theorem added_addElement (e : ListElement) (s : Section) :
    (s.addElement e).added = s.added ++ e.sentences.map Sentence.unflagged := by
  unfold addElement
  split
  · rename_i es hes
    exact added_modifyLastBlock hes (by simp [Block.sentences])
  · simp [added_pushBlock, Block.sentences]

end Section

namespace Document

/-- The contents and lines of all sentences, section after section. -/
def prose (d : Document) : List (Text × ℕ) := d.sections.flatMap Section.prose

/-- All sentences as they were added, section after section. -/
def added (d : Document) : List Sentence := d.sections.flatMap Section.added

theorem prose_eq (d : Document) : d.prose = d.added.map Sentence.body := by
  rw [prose, added, List.map_flatMap]
  refine List.flatMap_congr fun s _ => ?_
  simp [Section.prose, Section.added, Function.comp_def]

@[simp] theorem added_addSection (level : ℕ) (header : List Sentence) (d : Document) :
    (d.addSection level header).added = d.added ++ header.map Sentence.unflagged := by
  have hheader : (header.modify 0 fun s => { s with isFirst := true }).map Sentence.unflagged =
      header.map Sentence.unflagged := by
    rw [map_modify_of_forall]
    exact fun _ => rfl
  simp [added, addSection, Section.added, Section.sentences, Section.bodySentences, hheader]

@[simp] theorem added_addRoot (i : ℕ) (d : Document) : (d.addRoot i).added = d.added := rfl

@[simp] theorem added_attachChild (parent child : ℕ) (d : Document) :
    (d.attachChild parent child).added = d.added := by
  simp only [added, attachChild, List.flatMap]
  rw [map_modify_of_forall, map_modify_of_forall] <;> exact fun _ => rfl

@[simp] theorem added_withSection (d : Document) : d.withSection.added = d.added := by
  unfold withSection
  split <;> simp

theorem sections_withSection_ne_nil (d : Document) : d.withSection.sections ≠ [] := by
  unfold withSection
  split
  · simp [addSection, addRoot]
  · rename_i h
    simpa using h

/-- What the current section gains, the document gains. -/
theorem added_modifyCurrent {f : Section → Section} {new : List Sentence}
    (hf : ∀ s, (f s).added = s.added ++ new) (d : Document) :
    (d.modifyCurrent f).added = d.added ++ new := by
  obtain hnil | ⟨init, s, hinit⟩ := List.eq_nil_or_concat' d.withSection.sections
  · exact absurd hnil d.sections_withSection_ne_nil
  · rw [← added_withSection d]
    simp [modifyCurrent, added, hinit, hf]

theorem added_modifyCurrent_of_eq {f : Section → Section} (hf : ∀ s, (f s).added = s.added)
    (d : Document) : (d.modifyCurrent f).added = d.added := by
  have h : ∀ s, (f s).added = s.added ++ [] := by simpa using hf
  rw [added_modifyCurrent h, List.append_nil]

@[simp] theorem added_addParagraph (d : Document) : d.addParagraph.added = d.added :=
  added_modifyCurrent_of_eq (fun s => by simp [Section.added_pushBlock, Block.sentences]) d

@[simp] theorem added_addList (d : Document) : d.addList.added = d.added :=
  added_modifyCurrent_of_eq (fun s => by simp [Section.added_pushBlock, Block.sentences]) d

@[simp] theorem added_addSentence (x : Sentence) (d : Document) :
    (d.addSentence x).added = d.added ++ [x.unflagged] :=
  added_modifyCurrent (Section.added_addSentence x) d

@[simp] theorem added_setIndent (indent : Text) (d : Document) :
    (d.setIndent indent).added = d.added :=
  added_modifyCurrent_of_eq (Section.added_setIndent indent) d

@[simp] theorem added_addElement (level : ℕ) (ss : List Sentence) (d : Document) :
    (d.addElement level ss).added = d.added ++ ss.map Sentence.unflagged :=
  added_modifyCurrent (Section.added_addElement ⟨level, ss⟩) d

theorem added_foldl_addSentence (ss : List Sentence) (d : Document) :
    (ss.foldl (fun d s => d.addSentence s) d).added = d.added ++ ss.map Sentence.unflagged := by
  induction ss generalizing d with
  | nil => simp
  | cons s ss ih => simp [ih]

/-- Operations that add the same sentences add the same prose. -/
theorem prose_of_added {d d' : Document} {new : List Sentence}
    (h : d'.added = d.added ++ new.map Sentence.unflagged) :
    d'.prose = d.prose ++ new.map Sentence.body := by
  simp [prose_eq, h, Function.comp_def]

theorem prose_of_added_eq {d d' : Document} (h : d'.added = d.added) : d'.prose = d.prose := by
  rw [prose_eq, prose_eq, h]

@[simp] theorem prose_addParagraph (d : Document) : d.addParagraph.prose = d.prose :=
  prose_of_added_eq (added_addParagraph d)

@[simp] theorem prose_addList (d : Document) : d.addList.prose = d.prose :=
  prose_of_added_eq (added_addList d)

@[simp] theorem prose_setIndent (indent : Text) (d : Document) :
    (d.setIndent indent).prose = d.prose :=
  prose_of_added_eq (added_setIndent indent d)

@[simp] theorem prose_addElement (level : ℕ) (ss : List Sentence) (d : Document) :
    (d.addElement level ss).prose = d.prose ++ ss.map Sentence.body :=
  prose_of_added (added_addElement level ss d)

theorem prose_foldl_addSentence (ss : List Sentence) (d : Document) :
    (ss.foldl (fun d s => d.addSentence s) d).prose = d.prose ++ ss.map Sentence.body :=
  prose_of_added (added_foldl_addSentence ss d)

end Document
end ProseLint
