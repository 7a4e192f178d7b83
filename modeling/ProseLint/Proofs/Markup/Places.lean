import Mathlib.Tactic
import ProseLint.Proofs.Markup.Run
import ProseLint.Proofs.Text.Ink

/-!
# Places in a markup tree

A character of a tree has a place: the paragraph it belongs to, whether it is in a list, and how
many boundaries there are in front of it. A list begins with a boundary and a list item ends with
one; a header, and a paragraph outside lists, has one on either side. When paragraphs hold inline
nodes only, two of them without a boundary in between are both in lists.
-/
namespace ProseLint.Markup

namespace Container

def isList : Container → Bool
  | bulletList | orderedList => true
  | root | header _ | paragraph | listItem | quote | emphasis | link _ => false

/-- The boundaries in front of what a container holds. -/
def before (inList : Bool) : Container → ℕ
  | paragraph => if inList then 0 else 1
  | header _ | bulletList | orderedList => 1
  | root | listItem | quote | emphasis | link _ => 0

/-- The boundaries behind what a container holds. -/
def behind (inList : Bool) : Container → ℕ
  | paragraph => if inList then 0 else 1
  | header _ | listItem => 1
  | root | bulletList | orderedList | quote | emphasis | link _ => 0

theorem before_le (inList : Bool) (kind : Container) : kind.before inList ≤ 1 := by
  cases kind <;> cases inList <;> simp [before]

theorem behind_le (inList : Bool) (kind : Container) : kind.behind inList ≤ 1 := by
  cases kind <;> cases inList <;> simp [behind]

end Container

/-- Where a character stands in a tree. -/
structure Place where
  /-- The position of its leaf in the source. -/
  leaf : ℕ := 0
  /-- The way from the root down to the paragraph around it. -/
  paragraph : Option (List ℕ) := none
  inList : Bool := false
  /-- The number of boundaries in front of it. -/
  boundaries : ℕ := 0
  deriving DecidableEq, Repr

namespace Place

/-- The place at which a container begins what it holds. -/
def enter (path : List ℕ) (kind : Container) (here : Place) : Place :=
  { here with
    paragraph := if kind = .paragraph then some path else here.paragraph
    inList := here.inList || kind.isList
    boundaries := here.boundaries + kind.before here.inList }

/-- The same place behind some more boundaries. -/
def pass (n : ℕ) (here : Place) : Place := { here with boundaries := here.boundaries + n }

theorem inList_enter (path : List ℕ) (kind : Container) (here : Place) :
    (here.enter path kind).inList = (here.inList || kind.isList) := rfl

@[simp] theorem enter_emphasis (path : List ℕ) (here : Place) :
    here.enter path .emphasis = here := by
  simp [enter, Container.isList, Container.before]

@[simp] theorem enter_link (path : List ℕ) (url : Text) (here : Place) :
    here.enter path (.link url) = here := by
  simp [enter, Container.isList, Container.before]

@[simp] theorem pass_zero (here : Place) : here.pass 0 = here := rfl

end Place

namespace Node

mutual

/-- The number of boundaries in a tree. -/
def boundaries (inList : Bool) : Node → ℕ
  | .leaf _ => 0
  | .container kind children =>
    kind.before inList + boundariesOfAll (inList || kind.isList) children + kind.behind inList

def boundariesOfAll (inList : Bool) : List Node → ℕ
  | [] => 0
  | n :: ns => boundaries inList n + boundariesOfAll inList ns

end

mutual

/-- The characters of a tree from left to right, each with its place. The tree begins at the place
`here`, and `path` leads to it. -/
def places (path : List ℕ) (here : Place) : Node → Marked Place
  | .leaf l => l.content.map fun c => (c, { here with leaf := l.offset })
  | .container kind children => placesOfAll path 0 (here.enter path kind) children

/-- The same for the children of a node from number `i` on. -/
def placesOfAll (path : List ℕ) (i : ℕ) (here : Place) : List Node → Marked Place
  | [] => []
  | n :: ns => places (path ++ [i]) here n ++
      placesOfAll path (i + 1) (here.pass (n.boundaries here.inList)) ns

end

mutual

/-- A leaf, or emphasis or a link around inline nodes. -/
def isInline : Node → Bool
  | .leaf _ => true
  | .container .emphasis children => allInline children
  | .container (.link _) children => allInline children
  | .container _ _ => false

def allInline : List Node → Bool
  | [] => true
  | n :: ns => isInline n && allInline ns

end

mutual

/-- The paragraphs of a tree hold inline nodes only. -/
def paragraphsInline : Node → Bool
  | .leaf _ => true
  | .container .paragraph children => allInline children
  | .container _ children => allParagraphsInline children

def allParagraphsInline : List Node → Bool
  | [] => true
  | n :: ns => paragraphsInline n && allParagraphsInline ns

end

mutual

/-- Inline nodes have no boundaries, and in a place all their characters have the same place but for
the leaf. -/
theorem places_of_isInline (path : List ℕ) (here : Place) : (n : Node) → n.isInline = true →
    n.boundaries here.inList = 0 ∧
      ∀ x ∈ n.places path here, x.2 = { here with leaf := x.2.leaf }
  | .leaf l, _ => by
    refine ⟨by rw [boundaries], fun x hx => ?_⟩
    rw [places] at hx
    obtain ⟨c, -, rfl⟩ := List.mem_map.mp hx
    rfl
  | .container kind children, h => by
    have hkind : allInline children = true ∧ (kind = .emphasis ∨ ∃ url, kind = .link url) := by
      cases kind <;> simp_all [isInline]
    obtain ⟨hchildren, hkind⟩ := hkind
    have hsame : here.enter path kind = here ∧ kind.before here.inList = 0 ∧
        kind.behind here.inList = 0 := by
      rcases hkind with rfl | ⟨url, rfl⟩ <;> simp [Container.before, Container.behind]
    obtain ⟨henter, hbefore, hbehind⟩ := hsame
    obtain ⟨hnone, hplaces⟩ :=
      placesOfAll_of_allInline path 0 (here.enter path kind) children hchildren
    rw [boundaries, places, hbefore, hbehind, ← Place.inList_enter path, hnone]
    rw [henter] at hplaces ⊢
    exact ⟨rfl, hplaces⟩

theorem placesOfAll_of_allInline (path : List ℕ) (i : ℕ) (here : Place) : (ns : List Node) →
    allInline ns = true → boundariesOfAll here.inList ns = 0 ∧
      ∀ x ∈ placesOfAll path i here ns, x.2 = { here with leaf := x.2.leaf }
  | [], _ => by simp [boundariesOfAll, placesOfAll]
  | n :: ns, h => by
    rw [allInline, Bool.and_eq_true] at h
    obtain ⟨hfirst, hplaces⟩ := places_of_isInline (path ++ [i]) here n h.1
    obtain ⟨hrest, hplaces'⟩ := placesOfAll_of_allInline path (i + 1) here ns h.2
    rw [boundariesOfAll, placesOfAll, hfirst, hrest, Place.pass_zero]
    exact ⟨rfl, fun x hx => (List.mem_append.mp hx).elim (hplaces x) (hplaces' x)⟩

end

end Node

/-- Places of characters between boundary number `first` and the `width` boundaries that follow. -/
structure Spread (first width : ℕ) (m : Marked Place) : Prop where
  bounded : ∀ x ∈ m, first ≤ x.2.boundaries ∧ x.2.boundaries ≤ first + width
  /-- Outside lists there are boundaries around a paragraph. -/
  enclosed : ∀ x ∈ m, x.2.paragraph ≠ none → x.2.inList = false →
    first < x.2.boundaries ∧ x.2.boundaries < first + width
  /-- Two paragraphs without a boundary in between are in lists. -/
  apart : ∀ x ∈ m, ∀ y ∈ m, ∀ p q, x.2.paragraph = some p → y.2.paragraph = some q → p ≠ q →
    x.2.boundaries = y.2.boundaries → x.2.inList = true ∧ y.2.inList = true

namespace Spread

variable {first width width' : ℕ} {m n : Marked Place}

theorem nil (first : ℕ) : Spread first 0 [] := ⟨by simp, by simp, by simp⟩

theorem of_no_paragraph (hfirst : ∀ x ∈ m, x.2.boundaries = first)
    (hnone : ∀ x ∈ m, x.2.paragraph = none) : Spread first 0 m where
  bounded x hx := by simp [hfirst x hx]
  enclosed x hx hp := absurd (hnone x hx) hp
  apart x hx y _ p q hp := by simp [hnone x hx] at hp

/-- The characters of one paragraph, which has boundaries around it when it is in no list. -/
theorem of_paragraph {here : Place} {side : ℕ}
    (hplaces : ∀ x ∈ m, x.2 = { here with leaf := x.2.leaf })
    (hfirst : here.boundaries = first + side) (hside : here.inList = false → 0 < side) :
    Spread first (side + side) m where
  bounded x hx := by
    rw [hplaces x hx]
    dsimp only
    omega
  enclosed x hx _ hlist := by
    rw [hplaces x hx] at hlist ⊢
    have := hside hlist
    dsimp only
    omega
  apart x hx y hy p q hp hq hne := by
    rw [hplaces x hx] at hp
    rw [hplaces y hy] at hq
    exact absurd (Option.some.inj (hp.symm.trans hq)) hne

theorem append (h : Spread first width m) (h' : Spread (first + width) width' n) :
    Spread first (width + width') (m ++ n) := by
  -- a paragraph that reaches the common boundary is in a list
  have hleft : ∀ x ∈ m, x.2.paragraph ≠ none → first + width ≤ x.2.boundaries →
      x.2.inList = true := by
    intro x hx hp hle
    by_contra hlist
    have := (h.enclosed x hx hp (by simpa using hlist)).2
    omega
  have hright : ∀ x ∈ n, x.2.paragraph ≠ none → x.2.boundaries ≤ first + width →
      x.2.inList = true := by
    intro x hx hp hle
    by_contra hlist
    have := (h'.enclosed x hx hp (by simpa using hlist)).1
    omega
  constructor
  case bounded =>
    intro x hx
    rcases List.mem_append.mp hx with hx | hx
    · have := h.bounded x hx
      omega
    · have := h'.bounded x hx
      omega
  case enclosed =>
    intro x hx hp hlist
    rcases List.mem_append.mp hx with hx | hx
    · have := h.enclosed x hx hp hlist
      omega
    · have := h'.enclosed x hx hp hlist
      omega
  case apart =>
    intro x hx y hy p q hp hq hne heq
    have hp' : x.2.paragraph ≠ none := by simp [hp]
    have hq' : y.2.paragraph ≠ none := by simp [hq]
    rcases List.mem_append.mp hx with hx | hx <;> rcases List.mem_append.mp hy with hy | hy
    · exact h.apart x hx y hy p q hp hq hne heq
    · have hlow := (h'.bounded y hy).1
      have hhigh := (h.bounded x hx).2
      exact ⟨hleft x hx hp' (by omega), hright y hy hq' (by omega)⟩
    · have hlow := (h'.bounded x hx).1
      have hhigh := (h.bounded y hy).2
      exact ⟨hright x hx hp' (by omega), hleft y hy hq' (by omega)⟩
    · exact h'.apart x hx y hy p q hp hq hne heq

/-- More boundaries around the characters. -/
theorem widen {before behind : ℕ} (h : Spread (first + before) width m) :
    Spread first (before + width + behind) m where
  bounded x hx := by
    have := h.bounded x hx
    omega
  enclosed x hx hp hlist := by
    have := h.enclosed x hx hp hlist
    omega
  apart := h.apart

end Spread

namespace Node

mutual

theorem spread_places (path : List ℕ) (here : Place) (hnone : here.paragraph = none) : (n : Node) →
    n.paragraphsInline = true →
      Spread here.boundaries (n.boundaries here.inList) (n.places path here)
  | .leaf l, _ => by
    rw [boundaries, places]
    refine .of_no_paragraph (fun x hx => ?_) (fun x hx => ?_) <;>
      obtain ⟨c, -, rfl⟩ := List.mem_map.mp hx
    · rfl
    · exact hnone
  | .container kind children, h => by
    rw [boundaries, places]
    by_cases hkind : kind = .paragraph
    · subst hkind
      rw [paragraphsInline] at h
      obtain ⟨hzero, hplaces⟩ :=
        placesOfAll_of_allInline path 0 (here.enter path .paragraph) children h
      have hside : here.inList = false → 0 < Container.paragraph.before here.inList := by
        intro hlist
        simp [Container.before, hlist]
      rw [← Place.inList_enter path, hzero]
      exact Spread.of_paragraph hplaces rfl (by simpa [Place.enter, Container.isList])
    · have hchildren : allParagraphsInline children = true := by
        cases kind <;> simp_all [paragraphsInline]
      have hnone' : (here.enter path kind).paragraph = none := by
        simp [Place.enter, hkind, hnone]
      exact (spread_placesOfAll path 0 (here.enter path kind) hnone' children hchildren).widen

theorem spread_placesOfAll (path : List ℕ) (i : ℕ) (here : Place) (hnone : here.paragraph = none) :
    (ns : List Node) → allParagraphsInline ns = true →
      Spread here.boundaries (boundariesOfAll here.inList ns) (placesOfAll path i here ns)
  | [], _ => by
    rw [boundariesOfAll, placesOfAll]
    exact .nil _
  | n :: ns, h => by
    rw [allParagraphsInline, Bool.and_eq_true] at h
    rw [boundariesOfAll, placesOfAll]
    exact (spread_places (path ++ [i]) here hnone n h.1).append
      (spread_placesOfAll path (i + 1) (here.pass _) hnone ns h.2)

end

end Node
end ProseLint.Markup
