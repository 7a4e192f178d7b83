import Mathlib.Tactic
import ProseLint.Document.Build

/-!
# The forest of sections

In a nested document the parent of a section is the nearest section before it whose level is lower,
and the links to children and the list of roots say the same. A section that is placed below the
nearest earlier one of lower level, or made a root when there is none, keeps a document nested. What
happens in the blocks of a section does not matter.
-/
namespace ProseLint

/-- The largest number below a bound that has a property. -/
def lastBelow (p : ℕ → Bool) : ℕ → Option ℕ
  | 0 => none
  | n + 1 => if p n then some n else lastBelow p n

section lastBelow

variable {p q : ℕ → Bool} {n j : ℕ}

theorem lastBelow_eq_none_iff : lastBelow p n = none ↔ ∀ k < n, p k = false := by
  induction n with
  | zero => simp [lastBelow]
  | succ n ih =>
    rw [lastBelow]
    split
    · rename_i h
      simp only [reduceCtorEq, false_iff, not_forall]
      exact ⟨n, by omega, by simp [h]⟩
    · rename_i h
      rw [ih, Nat.forall_lt_succ_right]
      simp [h]

theorem lastBelow_eq_some_iff :
    lastBelow p n = some j ↔ j < n ∧ p j = true ∧ ∀ k, j < k → k < n → p k = false := by
  induction n with
  | zero => simp [lastBelow]
  | succ n ih =>
    rw [lastBelow]
    split
    · rename_i h
      constructor
      · rintro ⟨⟩
        exact ⟨by omega, h, by omega⟩
      · rintro ⟨hlt, _, hgap⟩
        by_contra hne
        have hjn : j ≠ n := fun he => hne (by rw [he])
        have := hgap n (by omega) (by omega)
        simp [h] at this
    · rename_i h
      rw [ih]
      constructor
      · rintro ⟨hlt, hj, hgap⟩
        refine ⟨by omega, hj, fun k hjk hk => ?_⟩
        rcases Nat.lt_succ_iff_lt_or_eq.mp hk with hk | rfl
        · exact hgap k hjk hk
        · simpa using h
      · rintro ⟨hlt, hj, hgap⟩
        refine ⟨?_, hj, fun k hjk hk => hgap k hjk (by omega)⟩
        rcases Nat.lt_succ_iff_lt_or_eq.mp hlt with hlt | rfl
        · exact hlt
        · exact absurd hj h

theorem lastBelow_congr (h : ∀ k < n, p k = q k) : lastBelow p n = lastBelow q n := by
  induction n with
  | zero => rfl
  | succ n ih =>
    rw [lastBelow, lastBelow, h n (by omega), ih fun k hk => h k (by omega)]

end lastBelow

namespace Document

theorem levelOf_eq (d : Document) (i : ℕ) :
    d.levelOf i = ((d.sections[i]?).map Section.level).getD 0 := by
  unfold levelOf
  cases d.sections[i]? <;> rfl

theorem parentOf_eq (d : Document) (i : ℕ) :
    d.parentOf i = (d.sections[i]?).bind Section.parent := by
  unfold parentOf
  cases d.sections[i]? <;> rfl

theorem childrenOf_eq (d : Document) (i : ℕ) :
    d.childrenOf i = ((d.sections[i]?).map Section.children).getD [] := by
  unfold childrenOf
  cases d.sections[i]? <;> rfl

theorem headerOf_eq (d : Document) (i : ℕ) :
    d.headerOf i = ((d.sections[i]?).map Section.header).getD [] := by
  unfold headerOf
  cases d.sections[i]? <;> rfl

/-- The header of a new section, its first sentence marked as such. -/
def openHeader (header : List Sentence) : List Sentence :=
  header.modify 0 fun s => { s with isFirst := true }

section

variable (d : Document) (level : ℕ) (header : List Sentence) (i : ℕ)

theorem getElem?_addSection : (d.addSection level header).sections[i]? =
    if i = d.sections.length then some { level := level, header := openHeader header }
    else d.sections[i]? := by
  rw [addSection]
  rcases lt_trichotomy i d.sections.length with h | rfl | h
  · rw [List.getElem?_append_left h, if_neg h.ne]
  · simp [openHeader]
  · rw [if_neg h.ne', List.getElem?_eq_none h.le, List.getElem?_eq_none]
    simpa using h

theorem levelOf_addSection (hi : i < d.sections.length) :
    (d.addSection level header).levelOf i = d.levelOf i := by
  rw [levelOf_eq, levelOf_eq, getElem?_addSection, if_neg hi.ne]

theorem parentOf_addSection (hi : i < d.sections.length) :
    (d.addSection level header).parentOf i = d.parentOf i := by
  rw [parentOf_eq, parentOf_eq, getElem?_addSection, if_neg hi.ne]

theorem getElem?_attachChild (parent child : ℕ) : (d.attachChild parent child).sections[i]? =
    (d.sections[i]?).map fun s =>
      { s with
        children := if i = parent then s.children ++ [child] else s.children
        parent := if i = child then some parent else s.parent } := by
  simp only [attachChild, List.getElem?_modify]
  cases d.sections[i]? with
  | none => rfl
  | some s =>
    simp only [eq_comm (a := i)]
    by_cases hp : parent = i <;> by_cases hc : child = i <;> simp [hp, hc]

/-- Put a new section below the nearest section of lower level, or make it a root. -/
def place : Document :=
  match lastBelow (fun j => d.levelOf j < level) d.sections.length with
  | some parent => (d.addSection level header).attachChild parent d.sections.length
  | none => (d.addSection level header).addRoot d.sections.length

@[simp] theorem length_place : (d.place level header).sections.length = d.sections.length + 1 := by
  unfold place
  split <;> simp [attachChild, addSection, addRoot]

theorem levelOf_place :
    (d.place level header).levelOf i = if i = d.sections.length then level else d.levelOf i := by
  unfold place
  split <;> by_cases h : i = d.sections.length <;>
    simp [levelOf_eq, getElem?_attachChild, addRoot, getElem?_addSection, h, Function.comp_def]

theorem headerOf_place : (d.place level header).headerOf i =
    if i = d.sections.length then openHeader header else d.headerOf i := by
  unfold place
  split <;> by_cases h : i = d.sections.length <;>
    simp [headerOf_eq, getElem?_attachChild, addRoot, getElem?_addSection, h, Function.comp_def]

theorem parentOf_place : (d.place level header).parentOf i =
    if i = d.sections.length then lastBelow (fun j => d.levelOf j < level) d.sections.length
    else d.parentOf i := by
  unfold place
  split <;> rename_i hp <;> by_cases h : i = d.sections.length
  · simp [parentOf_eq, getElem?_attachChild, getElem?_addSection, h, hp]
  · simp only [parentOf_eq, getElem?_attachChild, getElem?_addSection, if_neg h]
    cases d.sections[i]? <;> rfl
  · simp [parentOf_eq, addRoot, getElem?_addSection, h, hp]
  · simp [parentOf_eq, addRoot, getElem?_addSection, h]

theorem roots_place : (d.place level header).roots =
    if lastBelow (fun j => d.levelOf j < level) d.sections.length = none then
      d.roots ++ [d.sections.length] else d.roots := by
  unfold place
  split <;> rename_i hp <;> simp [attachChild, addRoot, addSection, hp]

theorem childrenOf_place : (d.place level header).childrenOf i =
    if lastBelow (fun j => d.levelOf j < level) d.sections.length = some i then
      d.childrenOf i ++ [d.sections.length] else d.childrenOf i := by
  unfold place
  split
  · rename_i parent hp
    have hlt : parent < d.sections.length := (lastBelow_eq_some_iff.mp hp).1
    rw [childrenOf_eq, getElem?_attachChild, getElem?_addSection, childrenOf_eq, hp]
    by_cases h : i = d.sections.length
    · have hne : parent ≠ i := by omega
      simp [h, h ▸ hne, (h ▸ hne).symm]
    · by_cases hi : i = parent
      · simp [hi, hlt.ne, hlt]
      · simp [h, hi, Ne.symm hi]
  · rename_i hp
    by_cases h : i = d.sections.length <;>
      simp [childrenOf_eq, addRoot, getElem?_addSection, h, hp]

end

/-- The links of the sections follow from their levels. -/
structure Nested (d : Document) : Prop where
  parent_eq : ∀ i < d.sections.length,
    d.parentOf i = lastBelow (fun j => d.levelOf j < d.levelOf i) i
  children_eq : ∀ j < d.sections.length,
    d.childrenOf j = (List.range d.sections.length).filter fun i => d.parentOf i = some j
  roots_eq : d.roots = (List.range d.sections.length).filter fun i => d.parentOf i = none

namespace Nested

variable {d : Document} {i j k : ℕ}

theorem parent_spec (h : d.Nested) (hi : i < d.sections.length) : d.parentOf i = some j ↔
    j < i ∧ d.levelOf j < d.levelOf i ∧ ∀ k, j < k → k < i → d.levelOf i ≤ d.levelOf k := by
  rw [h.parent_eq i hi, lastBelow_eq_some_iff]
  simp

theorem no_parent_spec (h : d.Nested) (hi : i < d.sections.length) :
    d.parentOf i = none ↔ ∀ k < i, d.levelOf i ≤ d.levelOf k := by
  rw [h.parent_eq i hi, lastBelow_eq_none_iff]
  simp

theorem parent_lt (h : d.Nested) (hp : d.parentOf i = some j) : j < i := by
  by_cases hi : i < d.sections.length
  · exact ((h.parent_spec hi).mp hp).1
  · rw [parentOf_eq, List.getElem?_eq_none (by omega)] at hp
    simp at hp

theorem nil (name : Text) : Nested { name := name } := ⟨by simp, by simp, by simp⟩

/-- Placing a section keeps the document nested: the links among the sections before it stay, and
the new one is the last in every list that it joins. -/
theorem place (h : d.Nested) (level : ℕ) (header : List Sentence) :
    (d.place level header).Nested := by
  have hold : ∀ i < d.sections.length, (d.place level header).parentOf i = d.parentOf i := by
    intro i hi
    rw [parentOf_place, if_neg hi.ne]
  have hfilter : ∀ o : Option ℕ,
      ((List.range d.sections.length).filter fun i => (d.place level header).parentOf i = o) =
        (List.range d.sections.length).filter fun i => d.parentOf i = o := by
    intro o
    apply List.filter_congr
    intro i hi
    rw [hold i (List.mem_range.mp hi)]
  have hnew : (d.place level header).parentOf d.sections.length =
      lastBelow (fun j => d.levelOf j < level) d.sections.length := by
    rw [parentOf_place, if_pos rfl]
  refine ⟨?_, ?_, ?_⟩
  · intro i hi
    rw [length_place] at hi
    have hlevel : ∀ k < i, (d.place level header).levelOf k = d.levelOf k := by
      intro k hk
      rw [levelOf_place, if_neg (by omega)]
    rcases Nat.lt_succ_iff_lt_or_eq.mp hi with hi | rfl
    · rw [hold i hi, h.parent_eq i hi, levelOf_place, if_neg hi.ne]
      exact lastBelow_congr fun k hk => by rw [hlevel k hk]
    · rw [hnew, levelOf_place, if_pos rfl]
      exact lastBelow_congr fun k hk => by rw [hlevel k hk]
  · intro j hj
    rw [length_place] at hj ⊢
    rw [List.range_succ, List.filter_append, hfilter, childrenOf_place]
    rcases Nat.lt_succ_iff_lt_or_eq.mp hj with hj | rfl
    · rw [h.children_eq j hj]
      split <;> rename_i hp <;> simp [hnew, hp]
    · have hnone : lastBelow (fun j => d.levelOf j < level) d.sections.length ≠
          some d.sections.length := fun hp => (lastBelow_eq_some_iff.mp hp).1.ne rfl
      have hleaf : ∀ i ∈ List.range d.sections.length, d.parentOf i ≠ some d.sections.length := by
        intro i hi hp
        have := h.parent_lt hp
        have := List.mem_range.mp hi
        omega
      rw [if_neg hnone, childrenOf_eq, List.getElem?_eq_none le_rfl]
      simpa [hnew, hnone] using hleaf
  · rw [length_place, List.range_succ, List.filter_append, hfilter, roots_place, h.roots_eq]
    split <;> rename_i hp <;> simp [hnew, hp]

end Nested
end Document

/-- A section without its blocks. -/
def Section.frame (s : Section) : Section := { s with blocks := [] }

namespace Section

@[simp] theorem frame_pushBlock (b : Block) (s : Section) : (s.pushBlock b).frame = s.frame := rfl

@[simp] theorem frame_addSentence (x : Sentence) (s : Section) :
    (s.addSentence x).frame = s.frame := by
  unfold addSentence
  split <;> rfl

@[simp] theorem frame_setIndent (indent : Text) (s : Section) :
    (s.setIndent indent).frame = s.frame := by
  unfold setIndent
  split <;> rfl

@[simp] theorem frame_addElement (e : ListElement) (s : Section) :
    (s.addElement e).frame = s.frame := by
  unfold addElement
  split <;> rfl

end Section

theorem map_modify_of_forall {α β : Type*} {f : α → α} {g : α → β} (h : ∀ a, g (f a) = g a)
    (l : List α) (i : ℕ) : (l.modify i f).map g = l.map g := by
  apply List.ext_getElem?
  intro j
  rw [List.getElem?_map, List.getElem?_map, List.getElem?_modify]
  split <;> simp [Function.comp_def, h]

namespace Document

/-- A document without the blocks of its sections. -/
def frame (d : Document) : Document := { d with sections := d.sections.map Section.frame }

variable {d d' : Document}

@[simp] theorem length_frame : d.frame.sections.length = d.sections.length := by simp [frame]

@[simp] theorem roots_frame : d.frame.roots = d.roots := rfl

@[simp] theorem levelOf_frame (i : ℕ) : d.frame.levelOf i = d.levelOf i := by
  simp [levelOf_eq, frame, Function.comp_def, Section.frame]

@[simp] theorem parentOf_frame (i : ℕ) : d.frame.parentOf i = d.parentOf i := by
  rw [parentOf_eq, parentOf_eq, frame, List.getElem?_map]
  cases d.sections[i]? <;> rfl

@[simp] theorem childrenOf_frame (i : ℕ) : d.frame.childrenOf i = d.childrenOf i := by
  simp [childrenOf_eq, frame, Function.comp_def, Section.frame]

@[simp] theorem headerOf_frame (i : ℕ) : d.frame.headerOf i = d.headerOf i := by
  simp [headerOf_eq, frame, Function.comp_def, Section.frame]

theorem nested_frame : d.frame.Nested ↔ d.Nested := by
  constructor
  · rintro ⟨hparent, hchildren, hroots⟩
    exact ⟨by simpa using hparent, by simpa using hchildren, by simpa using hroots⟩
  · rintro ⟨hparent, hchildren, hroots⟩
    exact ⟨by simpa using hparent, by simpa using hchildren, by simpa using hroots⟩

theorem withSection_eq (d : Document) :
    d.withSection = if d.sections = [] then d.place 0 [] else d := by
  unfold withSection place
  by_cases h : d.sections = []
  · simp [h, lastBelow]
  · simp [h]

/-- Only the blocks differ after a change of the current section, save that there may be a preamble
now. -/
theorem frame_modifyCurrent {f : Section → Section} (hf : ∀ s, (f s).frame = s.frame)
    (d : Document) : (d.modifyCurrent f).frame = d.withSection.frame := by
  have hmap := map_modify_of_forall hf d.withSection.sections (d.withSection.sections.length - 1)
  simp [modifyCurrent, frame, hmap]

end Document
end ProseLint
