import ProseLint.Proofs.Document.Prose

/-!
# First sentences

In the header of a section and in a paragraph the first sentence is flagged as such, and no other
one. No sentence of a list is flagged. Each building operation keeps this.
-/
namespace ProseLint

/-- The first sentence is flagged and no other one. -/
def FlagsFirst (ss : List Sentence) : Prop := ∀ i x, ss[i]? = some x → (x.isFirst = true ↔ i = 0)

/-- No sentence is flagged. -/
def FlagsNone (ss : List Sentence) : Prop := ∀ x ∈ ss, x.isFirst = false

theorem flagsFirst_nil : FlagsFirst [] := by
  intro i x h
  simp at h

theorem FlagsFirst.concat {ss : List Sentence} (h : FlagsFirst ss) (x : Sentence) :
    FlagsFirst (ss ++ [{ x with isFirst := ss.isEmpty }]) := by
  intro i y hy
  rw [List.getElem?_append] at hy
  split at hy
  · exact h i y hy
  · rename_i hi
    obtain ⟨hi', rfl⟩ : i = ss.length ∧ { x with isFirst := ss.isEmpty } = y := by
      rw [List.getElem?_singleton] at hy
      split at hy
      · exact ⟨by omega, by simpa using hy⟩
      · simp at hy
    rw [hi', List.length_eq_zero_iff, List.isEmpty_iff]

theorem FlagsNone.flagsFirst {ss : List Sentence} (h : FlagsNone ss) :
    FlagsFirst (ss.modify 0 fun x => { x with isFirst := true }) := by
  cases ss with
  | nil => exact flagsFirst_nil
  | cons a ss =>
    intro i x hx
    cases i with
    | zero =>
      obtain rfl : { a with isFirst := true } = x := by simpa using hx
      simp
    | succ i =>
      have hmem : x ∈ ss := List.mem_of_getElem? (by simpa using hx)
      simp [h x (List.mem_cons_of_mem _ hmem)]

def Block.Flagged : Block → Prop
  | paragraph p => FlagsFirst p.sentences
  | list es => ∀ e ∈ es, FlagsNone e.sentences

structure Section.Flagged (s : Section) : Prop where
  header : FlagsFirst s.header
  blocks : ∀ b ∈ s.blocks, b.Flagged

/-- What holds of all blocks holds when the last one is exchanged for one of which it holds. -/
theorem Section.forall_mem_modifyLastBlock {P : Block → Prop} {s : Section} {b : Block}
    (h : ∀ b' ∈ s.blocks, P b') (hb : P b) :
    ∀ b' ∈ (s.modifyLastBlock fun _ => b).blocks, P b' := by
  intro b' hb'
  rcases List.eq_nil_or_concat' s.blocks with hnil | ⟨init, last, hinit⟩
  · simp [modifyLastBlock, hnil] at hb'
  · rw [blocks_modifyLastBlock hinit, List.mem_append, List.mem_singleton] at hb'
    rcases hb' with hb' | rfl
    · exact h b' (hinit ▸ List.mem_append_left _ hb')
    · exact hb

namespace Section.Flagged

variable {s : Section} {b : Block}

theorem pushBlock (h : s.Flagged) (hb : b.Flagged) : (s.pushBlock b).Flagged := by
  refine ⟨h.header, fun b' hb' => ?_⟩
  rcases List.mem_append.mp hb' with hb' | hb'
  · exact h.blocks b' hb'
  · obtain rfl : b' = b := by simpa using hb'
    exact hb

theorem modifyLastBlock (h : s.Flagged) (hb : b.Flagged) :
    (s.modifyLastBlock fun _ => b).Flagged :=
  ⟨h.header, forall_mem_modifyLastBlock h.blocks hb⟩

theorem last (h : s.Flagged) (hb : s.blocks.getLast? = some b) : b.Flagged :=
  h.blocks b (List.mem_of_getLast? hb)

theorem addSentence (h : s.Flagged) (x : Sentence) : (s.addSentence x).Flagged := by
  unfold Section.addSentence
  split
  · rename_i p hp
    exact h.modifyLastBlock (FlagsFirst.concat (h.last hp) x)
  · exact h.pushBlock (flagsFirst_nil.concat x)

theorem setIndent (h : s.Flagged) (indent : Text) : (s.setIndent indent).Flagged := by
  unfold Section.setIndent
  split
  · rename_i p hp
    have hflags : FlagsFirst p.sentences := h.last hp
    exact h.modifyLastBlock hflags
  · exact h

theorem addElement (h : s.Flagged) {e : ListElement} (he : FlagsNone e.sentences) :
    (s.addElement e).Flagged := by
  unfold Section.addElement
  split
  · rename_i es hes
    refine h.modifyLastBlock fun e' he' => ?_
    rcases List.mem_append.mp he' with he' | he'
    · exact h.last hes e' he'
    · obtain rfl : e' = e := by simpa using he'
      exact he
  · refine h.pushBlock fun e' he' => ?_
    obtain rfl : e' = e := by simpa using he'
    exact he

end Section.Flagged

namespace Document

def Flagged (d : Document) : Prop := ∀ s ∈ d.sections, s.Flagged

variable {d : Document}

theorem forall_mem_modify {α : Type*} {P : α → Prop} {f : α → α} {l : List α}
    (hl : ∀ a ∈ l, P a) (hf : ∀ a, P a → P (f a)) (i : ℕ) : ∀ a ∈ l.modify i f, P a := by
  intro a ha
  obtain ⟨j, hj⟩ := List.mem_iff_getElem?.mp ha
  rw [List.getElem?_modify] at hj
  obtain ⟨b, hb, rfl⟩ := Option.map_eq_some_iff.mp hj
  have hPb := hl b (List.mem_of_getElem? hb)
  split
  · exact hf b hPb
  · exact hPb

namespace Flagged

theorem addSection (h : d.Flagged) (level : ℕ) {header : List Sentence}
    (hheader : FlagsNone header) : (d.addSection level header).Flagged := by
  intro s hs
  rcases List.mem_append.mp hs with hs | hs
  · exact h s hs
  · obtain rfl := List.mem_singleton.mp hs
    exact ⟨hheader.flagsFirst, by simp⟩

theorem attachChild (h : d.Flagged) (parent child : ℕ) : (d.attachChild parent child).Flagged := by
  have hlinked := forall_mem_modify (f := fun s => { s with children := s.children ++ [child] }) h
    (fun s hs => ⟨hs.header, hs.blocks⟩) parent
  exact forall_mem_modify (f := fun s => { s with parent := some parent }) hlinked
    (fun s hs => ⟨hs.header, hs.blocks⟩) child

theorem withSection (h : d.Flagged) : d.withSection.Flagged := by
  unfold Document.withSection
  split
  · exact h.addSection 0 (by simp [FlagsNone])
  · exact h

theorem modifyCurrent (h : d.Flagged) {f : Section → Section}
    (hf : ∀ s : Section, s.Flagged → (f s).Flagged) : (d.modifyCurrent f).Flagged :=
  forall_mem_modify h.withSection hf _

theorem addParagraph (h : d.Flagged) : d.addParagraph.Flagged :=
  h.modifyCurrent fun _ hs => hs.pushBlock flagsFirst_nil

theorem addSentence (h : d.Flagged) (x : Sentence) : (d.addSentence x).Flagged :=
  h.modifyCurrent fun _ hs => hs.addSentence x

theorem foldl_addSentence (h : d.Flagged) (xs : List Sentence) :
    (xs.foldl (fun d x => d.addSentence x) d).Flagged := by
  induction xs generalizing d with
  | nil => exact h
  | cons x xs ih => exact ih (h.addSentence x)

theorem setIndent (h : d.Flagged) (indent : Text) : (d.setIndent indent).Flagged :=
  h.modifyCurrent fun _ hs => hs.setIndent indent

theorem addList (h : d.Flagged) : d.addList.Flagged :=
  h.modifyCurrent fun _ hs => hs.pushBlock (b := .list []) (by simp [Block.Flagged])

theorem addElement (h : d.Flagged) (level : ℕ) {ss : List Sentence} (hss : FlagsNone ss) :
    (d.addElement level ss).Flagged :=
  h.modifyCurrent fun _ hs => hs.addElement hss

end Flagged
end Document
end ProseLint
