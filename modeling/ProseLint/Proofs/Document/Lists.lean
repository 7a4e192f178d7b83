import ProseLint.Proofs.Document.Seats

/-!
# The lists of a document while it is built

A list is opened behind all others, and while the document ends in it elements are added to it. No
other building operation changes any list.
-/
namespace ProseLint

namespace Section

variable {s : Section}

/-- When the last block is exchanged the lists in front of it stay. -/
theorem exists_lists_modifyLastBlock {b : Block} (b' : Block) (hlast : s.blocks.getLast? = some b) :
    ∃ init, s.lists = init ++ b.elements?.toList ∧
      (s.modifyLastBlock fun _ => b').lists = init ++ b'.elements?.toList := by
  obtain ⟨init, hinit⟩ := List.getLast?_eq_some_iff.mp hlast
  refine ⟨init.filterMap Block.elements?, ?_, ?_⟩
  · rw [lists, hinit, List.filterMap_append]
    cases b <;> rfl
  · rw [lists, blocks_modifyLastBlock hinit, List.filterMap_append]
    cases b' <;> rfl

theorem lists_addSentence (x : Sentence) (s : Section) : (s.addSentence x).lists = s.lists := by
  unfold addSentence
  split
  · rename_i p hp
    obtain ⟨init, hs, hs'⟩ := exists_lists_modifyLastBlock (.paragraph { p with
      sentences := p.sentences ++ [{ x with isFirst := p.sentences.isEmpty }] }) hp
    exact hs'.trans hs.symm
  · rw [lists_pushBlock]
    exact List.append_nil _

theorem lists_setIndent (indent : Text) (s : Section) : (s.setIndent indent).lists = s.lists := by
  unfold setIndent
  split
  · rename_i p hp
    obtain ⟨init, hs, hs'⟩ :=
      exists_lists_modifyLastBlock (.paragraph { p with indent := indent }) hp
    exact hs'.trans hs.symm
  · rfl

end Section

namespace Document

@[simp] theorem lists_withSection (d : Document) : d.withSection.lists = d.lists := by
  unfold withSection
  split
  · rename_i hempty
    have hnil : d.sections = [] := List.isEmpty_iff.mp hempty
    simp [lists, addRoot, addSection, hnil, Section.lists]
  · rfl

/-- What the current section gains at its end, the document gains. -/
theorem lists_modifyCurrent {f : Section → Section} {new : List (List ListElement)}
    (hf : ∀ s, (f s).lists = s.lists ++ new) (d : Document) :
    (d.modifyCurrent f).lists = d.lists ++ new := by
  obtain hnil | ⟨init, s, hinit⟩ := List.eq_nil_or_concat' d.withSection.sections
  · exact absurd hnil d.sections_withSection_ne_nil
  · rw [← lists_withSection d]
    simp [lists, modifyCurrent, hinit, hf]

theorem lists_modifyCurrent_of_eq {f : Section → Section} (hf : ∀ s, (f s).lists = s.lists)
    (d : Document) : (d.modifyCurrent f).lists = d.lists := by
  rw [@lists_modifyCurrent f [] fun s => by rw [hf, List.append_nil]]
  exact List.append_nil _

theorem lists_addParagraph (d : Document) : d.addParagraph.lists = d.lists :=
  lists_modifyCurrent_of_eq (fun s => (Section.lists_pushBlock _ s).trans (List.append_nil _)) d

theorem lists_addSentence (x : Sentence) (d : Document) : (d.addSentence x).lists = d.lists :=
  lists_modifyCurrent_of_eq (Section.lists_addSentence x) d

theorem lists_foldl_addSentence (xs : List Sentence) (d : Document) :
    (xs.foldl (fun d x => d.addSentence x) d).lists = d.lists := by
  induction xs generalizing d with
  | nil => rfl
  | cons x xs ih => rw [List.foldl_cons, ih, lists_addSentence]

theorem lists_setIndent (indent : Text) (d : Document) : (d.setIndent indent).lists = d.lists :=
  lists_modifyCurrent_of_eq (Section.lists_setIndent indent) d

theorem lists_addSection (level : ℕ) (header : List Sentence) (d : Document) :
    (d.addSection level header).lists = d.lists := by
  simp [lists, addSection, Section.lists]

theorem lists_attachChild (parent child : ℕ) (d : Document) :
    (d.attachChild parent child).lists = d.lists := by
  have hmatter : (d.attachChild parent child).sections.map Section.matter =
      d.sections.map Section.matter := by
    rw [attachChild, map_modify_of_forall, map_modify_of_forall] <;> exact fun _ => rfl
  have hmap := congrArg (List.flatMap fun m => m.2.2.filterMap Block.elements?) hmatter
  rwa [List.flatMap_map, List.flatMap_map] at hmap

theorem lists_addList (d : Document) : d.addList.lists = d.lists ++ [[]] :=
  lists_modifyCurrent (Section.lists_pushBlock (.list [])) d

/-- An element goes into the list that the document ends in. -/
theorem lists_addElement {d : Document} (hd : d.EndsInList) {ls : List (List ListElement)}
    {es : List ListElement} (hlists : d.lists = ls ++ [es]) (level : ℕ) (ss : List Sentence) :
    (d.addElement level ss).lists = ls ++ [es ++ [⟨level, ss⟩]] := by
  obtain ⟨s, es', hs, hes⟩ := hd
  obtain ⟨init, hinit⟩ := List.getLast?_eq_some_iff.mp hs
  have hsection : d.withSection = d := by
    rw [withSection_eq, if_neg]
    rintro hnil
    simp [hnil] at hs
  obtain ⟨front, hfront, hfront'⟩ :=
    Section.exists_lists_modifyLastBlock (.list (es' ++ [⟨level, ss⟩])) hes
  have hold : d.lists = init.flatMap Section.lists ++ front ++ [es'] := by
    rw [lists, hinit, List.flatMap_append, List.flatMap_singleton, hfront, List.append_assoc]
    rfl
  have hnew : (d.addElement level ss).lists =
      init.flatMap Section.lists ++ front ++ [es' ++ [⟨level, ss⟩]] := by
    have hsections : (d.addElement level ss).sections =
        init ++ [s.addElement ⟨level, ss⟩] := by
      simp [addElement, modifyCurrent, hsection, hinit]
    have hadd : s.addElement ⟨level, ss⟩ =
        s.modifyLastBlock fun _ => .list (es' ++ [⟨level, ss⟩]) := by
      rw [Section.addElement, hes]
    rw [lists, hsections, List.flatMap_append, List.flatMap_singleton, hadd, hfront',
      List.append_assoc]
    rfl
  rw [hlists] at hold
  obtain ⟨rfl, hlast⟩ := List.append_inj' hold rfl
  obtain rfl : es = es' := by simpa using hlast
  exact hnew

/-- Add elements one after another. -/
def addElements (es : List ListElement) (d : Document) : Document :=
  es.foldl (fun d e => d.addElement e.level e.sentences) d

theorem lists_addElements {d : Document} (hd : d.EndsInList) {ls : List (List ListElement)}
    {es : List ListElement} (hlists : d.lists = ls ++ [es]) (new : List ListElement) :
    (d.addElements new).lists = ls ++ [es ++ new] := by
  induction new generalizing d es with
  | nil => simpa [addElements] using hlists
  | cons e new ih =>
    have hrest := ih (endsInList_addElement e.level e.sentences d)
      (lists_addElement hd hlists e.level e.sentences)
    rw [List.append_assoc] at hrest
    exact hrest

/-- A list that is opened and filled stands behind all others. -/
theorem lists_addElements_addList (es : List ListElement) (d : Document) :
    (d.addList.addElements es).lists = d.lists ++ [es] :=
  lists_addElements (endsInList_addList d) (lists_addList d) es

end Document
end ProseLint
