import ProseLint.Proofs.Document.Nesting

/-!
# Runs of building steps

A document is built by any sequence of steps. Some of them give a section its place in the forest,
as a root or below another section, and so does the first step that needs a preamble. While each
place is that of a section there is, below a section before it, the roots and children of the
document are the places in the order in which they were given.
-/
namespace ProseLint.Document

inductive BuildStep where
  | addSection (level : ℕ) (header : List Sentence)
  | addRoot (i : ℕ)
  | attachChild (parent child : ℕ)
  | addParagraph
  | addSentence (x : Sentence)
  | setIndent (indent : Text)
  | addList
  | addElement (level : ℕ) (sentences : List Sentence)

/-- A place in the forest of sections. -/
inductive Place where
  | root (i : ℕ)
  | child (parent i : ℕ)
  deriving DecidableEq

namespace Place

/-- The section that has the place. -/
def number : Place → ℕ
  | root i => i
  | child _ i => i

def root? : Place → Option ℕ
  | root i => some i
  | child _ _ => none

def below? (j : ℕ) : Place → Option ℕ
  | root _ => none
  | child parent i => if parent = j then some i else none

/-- The place is that of a section there is, below a section before it. -/
def Fits (d : Document) : Place → Prop
  | root i => i < d.sections.length
  | child parent i => parent < i ∧ i < d.sections.length

instance (d : Document) : (p : Place) → Decidable (p.Fits d)
  | root i => inferInstanceAs (Decidable (i < d.sections.length))
  | child parent i => inferInstanceAs (Decidable (parent < i ∧ i < d.sections.length))

theorem Fits.mono {d d' : Document} (hle : d.sections.length ≤ d'.sections.length) {p : Place}
    (h : p.Fits d) : p.Fits d' := by
  cases p with
  | root i => exact h.trans_le hle
  | child parent i => exact ⟨h.1, h.2.trans_le hle⟩

end Place

/-- The sections made roots, in the order in which they were. -/
def rootsIn (places : List Place) : List ℕ := places.filterMap Place.root?

/-- The sections placed below section `j`, in the order in which they were. -/
def childrenIn (places : List Place) (j : ℕ) : List ℕ := places.filterMap (Place.below? j)

namespace BuildStep

def apply (d : Document) : BuildStep → Document
  | addSection level header => d.addSection level header
  | addRoot i => d.addRoot i
  | attachChild parent child => d.attachChild parent child
  | addParagraph => d.addParagraph
  | addSentence x => d.addSentence x
  | setIndent indent => d.setIndent indent
  | addList => d.addList
  | addElement level sentences => d.addElement level sentences

/-- The place that a step gives. A step that adds to the current section makes a preamble when there
is no section yet, and that is a root. -/
def place? (d : Document) : BuildStep → Option Place
  | addSection _ _ => none
  | addRoot i => some (.root i)
  | attachChild parent child => some (.child parent child)
  | addParagraph | addSentence _ | setIndent _ | addList | addElement _ _ =>
    if d.sections.isEmpty then some (.root 0) else none

end BuildStep

/-- The document that steps build from an empty one. -/
def build (name : Text) (steps : List BuildStep) : Document :=
  steps.foldl BuildStep.apply { name := name }

/-- The places that steps give from a document on. -/
def placesFrom (d : Document) : List BuildStep → List Place
  | [] => []
  | step :: steps => (step.place? d).toList ++ placesFrom (step.apply d) steps

/-- All places that steps give from a document on fit when they are given. -/
def AllFit (d : Document) : List BuildStep → Prop
  | [] => True
  | step :: steps => (∀ p ∈ step.place? d, p.Fits (step.apply d)) ∧ AllFit (step.apply d) steps

instance decidableAllFit : (d : Document) → (steps : List BuildStep) → Decidable (AllFit d steps)
  | _, [] => inferInstanceAs (Decidable True)
  | d, step :: steps =>
    have := decidableAllFit (step.apply d) steps
    inferInstanceAs (Decidable ((∀ p ∈ step.place? d, p.Fits (step.apply d)) ∧
      AllFit (step.apply d) steps))

/-- Each section is placed exactly once, as a root or below a section before it. -/
structure PlacesOnce (name : Text) (steps : List BuildStep) : Prop where
  fit : AllFit { name := name } steps
  once : ((placesFrom { name := name } steps).map Place.number).Perm
    (List.range (build name steps).sections.length)

/-- The links of the sections are the places that have been given. -/
structure Linked (d : Document) (places : List Place) : Prop where
  roots_eq : d.roots = rootsIn places
  children_eq : ∀ j, d.childrenOf j = childrenIn places j
  fit : ∀ p ∈ places, p.Fits d

namespace Linked

variable {d : Document} {places : List Place}

theorem start (name : Text) : Linked { name := name } [] := by
  refine ⟨rfl, fun j => ?_, by simp⟩
  rw [childrenOf_eq]
  rfl

theorem childrenIn_eq_nil (h : d.Linked places) {j : ℕ} (hj : d.sections.length ≤ j) :
    childrenIn places j = [] := by
  rw [← h.children_eq, childrenOf_eq, List.getElem?_eq_none hj]
  rfl

/-- A new section has no links. -/
theorem addSection (h : d.Linked places) (level : ℕ) (header : List Sentence) :
    (d.addSection level header).Linked places := by
  refine ⟨h.roots_eq, fun j => ?_, fun p hp => (h.fit p hp).mono ?_⟩
  · rw [childrenOf_eq, getElem?_addSection]
    by_cases hj : j = d.sections.length
    · rw [if_pos hj, h.childrenIn_eq_nil hj.ge]
      rfl
    · rw [if_neg hj, ← childrenOf_eq, h.children_eq]
  · simp [Document.addSection]

theorem addRoot (h : d.Linked places) {i : ℕ} (hi : i < d.sections.length) :
    (d.addRoot i).Linked (places ++ [.root i]) := by
  refine ⟨?_, fun j => ?_, ?_⟩
  · rw [Document.addRoot, rootsIn, List.filterMap_append, h.roots_eq]
    rfl
  · rw [childrenIn, List.filterMap_append, ← childrenIn, ← h.children_eq]
    exact (List.append_nil _).symm
  · rw [List.forall_mem_append, List.forall_mem_singleton]
    exact ⟨h.fit, hi⟩

theorem attachChild (h : d.Linked places) {parent child : ℕ} (hlt : parent < child)
    (hchild : child < d.sections.length) :
    (d.attachChild parent child).Linked (places ++ [.child parent child]) := by
  have hlength : (d.attachChild parent child).sections.length = d.sections.length := by
    simp [Document.attachChild]
  refine ⟨?_, fun j => ?_, ?_⟩
  · rw [Document.attachChild, rootsIn, List.filterMap_append, h.roots_eq]
    exact (List.append_nil _).symm
  · rw [childrenOf_eq, getElem?_attachChild, childrenIn, List.filterMap_append, ← childrenIn,
      ← h.children_eq, childrenOf_eq]
    by_cases hj : parent = j
    · obtain ⟨s, hs⟩ : ∃ s, d.sections[j]? = some s :=
        ⟨_, List.getElem?_eq_getElem (by omega)⟩
      rw [hs]
      simp [Place.below?, hj]
    · cases d.sections[j]? with
      | none => simp [Place.below?, hj]
      | some s => simp [Place.below?, hj, Ne.symm hj]
  · rw [List.forall_mem_append, List.forall_mem_singleton]
    exact ⟨fun p hp => (h.fit p hp).mono hlength.ge, hlt, hlength ▸ hchild⟩

theorem withSection (h : d.Linked places) : d.withSection.Linked
    (places ++ (if d.sections.isEmpty then some (Place.root 0) else none).toList) := by
  unfold Document.withSection
  split
  · have hpos : 0 < (d.addSection 0 []).sections.length := by simp [Document.addSection]
    exact (h.addSection 0 []).addRoot hpos
  · simpa using h

/-- What happens in the blocks of a section does not matter. -/
theorem of_frame {d' : Document} (h : d.Linked places) (hframe : d'.frame = d.frame) :
    d'.Linked places := by
  have hlength : d'.sections.length = d.sections.length := by
    rw [← length_frame, hframe, length_frame]
  refine ⟨?_, fun j => ?_, fun p hp => (h.fit p hp).mono hlength.ge⟩
  · rw [← roots_frame, hframe, roots_frame, h.roots_eq]
  · rw [← childrenOf_frame, hframe, childrenOf_frame, h.children_eq]

theorem modifyCurrent (h : d.Linked places) {f : Section → Section}
    (hf : ∀ s, (f s).frame = s.frame) : (d.modifyCurrent f).Linked
    (places ++ (if d.sections.isEmpty then some (Place.root 0) else none).toList) :=
  h.withSection.of_frame (frame_modifyCurrent hf d)

/-- A step links the section that it gives a place to, and no other. -/
theorem apply (h : d.Linked places) {step : BuildStep}
    (hfit : ∀ p ∈ step.place? d, p.Fits (step.apply d)) :
    (step.apply d).Linked (places ++ (step.place? d).toList) := by
  cases step with
  | addSection level header =>
    rw [BuildStep.place?, Option.toList_none, List.append_nil]
    exact h.addSection level header
  | addRoot i => exact h.addRoot (hfit _ rfl)
  | attachChild parent child =>
    obtain ⟨hlt, hchild⟩ := hfit _ rfl
    exact h.attachChild hlt (by simpa [BuildStep.apply, Document.attachChild] using hchild)
  | addParagraph => exact h.modifyCurrent (Section.frame_pushBlock _)
  | addSentence x => exact h.modifyCurrent (Section.frame_addSentence x)
  | setIndent indent => exact h.modifyCurrent (Section.frame_setIndent indent)
  | addList => exact h.modifyCurrent (Section.frame_pushBlock _)
  | addElement level sentences => exact h.modifyCurrent (Section.frame_addElement _)

theorem foldl {steps : List BuildStep} (h : d.Linked places) (hfit : AllFit d steps) :
    (steps.foldl BuildStep.apply d).Linked (places ++ placesFrom d steps) := by
  induction steps generalizing d places with
  | nil => simpa [placesFrom] using h
  | cons step steps ih =>
    rw [placesFrom, List.foldl_cons, ← List.append_assoc]
    exact ih (h.apply hfit.1) hfit.2

end Linked

theorem linked_build {name : Text} {steps : List BuildStep} (h : AllFit { name := name } steps) :
    (build name steps).Linked (placesFrom { name := name } steps) :=
  (Linked.start name).foldl h

end ProseLint.Document
