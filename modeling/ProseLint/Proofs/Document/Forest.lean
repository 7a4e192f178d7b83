import ProseLint.Proofs.Document.Building

/-!
# The walk of a forest

The walk takes the next section from a stack and puts its children in its place. What it meets on
the way is what a recursion over the forest meets: a section, then all that is below its children,
one child after another, then what comes behind the section. Where every child comes after its
parent the recursion ends, and where each section has one place it meets each section once.
-/
namespace ProseLint.Document

/-- The recursion over the sections of a list and all that is below them meets the sections of
another list. -/
inductive Preorder (children : ℕ → List ℕ) : List ℕ → List ℕ → Prop
  | nil : Preorder children [] []
  | cons {i : ℕ} {rest below behind : List ℕ} (inner : Preorder children (children i) below)
      (outer : Preorder children rest behind) :
      Preorder children (i :: rest) (i :: (below ++ behind))

/-- Children come after their parents, and there are `n` sections. -/
def Ascends (n : ℕ) (children : ℕ → List ℕ) : Prop := ∀ j, ∀ i ∈ children j, j < i ∧ i < n

section Counting

variable {children : ℕ → List ℕ} {l l' : List ℕ} {i : ℕ}

theorem count_flatMap_filter (hchildren : ∀ j, i ∈ children j → j < i) (l : List ℕ) :
    (l.flatMap children).count i = ((l.filter (· < i)).flatMap children).count i := by
  induction l with
  | nil => rfl
  | cons j l ih =>
    rw [List.flatMap_cons, List.count_append, ih]
    by_cases hj : j < i
    · rw [List.filter_cons_of_pos (by simpa using hj), List.flatMap_cons, List.count_append]
    · have hzero : (children j).count i = 0 := List.count_eq_zero.mpr (mt (hchildren j) hj)
      rw [List.filter_cons_of_neg (by simpa using hj), hzero, Nat.zero_add]

/-- How often a section is a child tells about the sections before it only. -/
theorem count_flatMap_congr (hchildren : ∀ j, i ∈ children j → j < i)
    (h : ∀ j < i, l.count j = l'.count j) :
    (l.flatMap children).count i = (l'.flatMap children).count i := by
  have hperm : (l.filter (· < i)).Perm (l'.filter (· < i)) := by
    rw [List.perm_iff_count]
    intro j
    by_cases hj : j < i
    · rw [List.count_filter (by simpa using hj), List.count_filter (by simpa using hj), h j hj]
    · rw [List.count_eq_zero.mpr (by simp [hj]), List.count_eq_zero.mpr (by simp [hj])]
  rw [count_flatMap_filter hchildren l, count_flatMap_filter hchildren l']
  exact (hperm.flatMap_right children).count_eq i

end Counting

namespace Preorder

variable {children : ℕ → List ℕ} {front met met' : List ℕ} {n : ℕ}

theorem unique (h : Preorder children front met) (h' : Preorder children front met') :
    met = met' := by
  induction h generalizing met' with
  | nil =>
    cases h'
    rfl
  | cons _ _ ihinner ihouter =>
    cases h' with
    | cons inner outer => rw [ihinner inner, ihouter outer]

theorem exists_of_forall (h : ∀ i ∈ front, ∃ below, Preorder children (children i) below) :
    ∃ met, Preorder children front met := by
  induction front with
  | nil => exact ⟨[], .nil⟩
  | cons i rest ih =>
    obtain ⟨⟨below, hbelow⟩, hrest⟩ := List.forall_mem_cons.mp h
    obtain ⟨behind, hbehind⟩ := ih hrest
    exact ⟨i :: (below ++ behind), .cons hbelow hbehind⟩

/-- The recursion ends, for the sections behind a section become fewer on the way down. -/
theorem exists_of_ascends (h : Ascends n children) (front : List ℕ) :
    ∃ met, Preorder children front met := by
  apply exists_of_forall
  intro i hi
  clear hi
  induction hd : n - i using Nat.strong_induction_on generalizing i with
  | _ d ih =>
    subst hd
    apply exists_of_forall
    intro c hc
    have hlt := h i c hc
    exact ih (n - c) (by omega) c rfl

/-- The recursion meets the sections it begins with and the children of all that it meets. -/
theorem perm (h : Preorder children front met) : met.Perm (front ++ met.flatMap children) := by
  induction h with
  | nil => exact .nil
  | @cons i rest below behind _ _ ihinner ihouter =>
    rw [List.flatMap_cons, List.flatMap_append, List.cons_append]
    refine .cons i ?_
    calc below ++ behind
      _ |>.Perm ((children i ++ below.flatMap children) ++ (rest ++ behind.flatMap children)) :=
        ihinner.append ihouter
      _ |>.Perm ((rest ++ behind.flatMap children) ++ (children i ++ below.flatMap children)) :=
        List.perm_append_comm
      _ |>.Perm (rest ++ (children i ++ (below.flatMap children ++ behind.flatMap children))) := by
        rw [List.append_assoc, ← List.append_assoc (children i)]
        exact List.perm_append_comm.append_left rest

/-- Where each section has one place the recursion meets each section once: that the sections before
a section are met once tells how often it is met as a child. -/
theorem perm_range (h : Preorder children front met) (hchildren : Ascends n children)
    (hlinks : (front ++ (List.range n).flatMap children).Perm (List.range n)) :
    met.Perm (List.range n) := by
  rw [List.perm_iff_count]
  intro i
  induction i using Nat.strong_induction_on with
  | _ i ih =>
    have hbelow : (met.flatMap children).count i = ((List.range n).flatMap children).count i :=
      count_flatMap_congr (fun j hj => (hchildren j i hj).1) ih
    rw [h.perm.count_eq i, List.count_append, hbelow, ← List.count_append, hlinks.count_eq i]

end Preorder

/-- From a stack of sections the walk ends, and these are the sections it has visited. -/
inductive Walked (d : Document) : List ℕ → List ℕ → Prop
  | done : Walked d [] []
  | visit {i : ℕ} {rest met : List ℕ} (next : Walked d (d.childrenOf i ++ rest) met) :
      Walked d (i :: rest) (i :: met)

variable {d : Document} {front rest met met' : List ℕ}

theorem Walked.unique (h : d.Walked front met) (h' : d.Walked front met') : met = met' := by
  induction h generalizing met' with
  | done =>
    cases h'
    rfl
  | visit _ ih =>
    cases h' with
    | visit next => rw [ih next]

/-- The walk visits what the recursion meets. -/
theorem Preorder.walked (h : Preorder d.childrenOf front met) (hrest : d.Walked rest met') :
    d.Walked (front ++ rest) (met ++ met') := by
  induction h generalizing rest met' with
  | nil => exact hrest
  | cons _ _ ihinner ihouter =>
    rw [List.cons_append, List.cons_append, List.append_assoc]
    exact .visit (ihinner (ihouter hrest))

/-- A bound on the visits that the walk does not reach has no effect. -/
theorem Walked.walkFrom_eq (h : d.Walked front met) {bound : ℕ} (hbound : met.length ≤ bound) :
    d.walkFrom bound front = met := by
  induction h generalizing bound with
  | done => cases bound <;> rfl
  | visit _ ih =>
    obtain ⟨bound, rfl⟩ : ∃ b, bound = b + 1 := ⟨bound - 1, by simp at hbound; omega⟩
    rw [walkFrom, ih (by simpa using hbound)]

theorem Preorder.total_visits (h : Preorder d.childrenOf front met) {n depth : ℕ}
    (hchildren : Ascends n d.childrenOf) (hfront : ∀ i ∈ front, i < n ∧ n ≤ i + depth) :
    total (front.map (d.visits depth)) = met.length := by
  induction h generalizing depth with
  | nil => rfl
  | @cons i rest below behind _ _ ihinner ihouter =>
    obtain ⟨hi, hrest⟩ := List.forall_mem_cons.mp hfront
    obtain ⟨depth, rfl⟩ : ∃ e, depth = e + 1 := ⟨depth - 1, by omega⟩
    have hbelow : total ((d.childrenOf i).map (d.visits depth)) = below.length :=
      ihinner fun c hc => by
        have := hchildren i c hc
        omega
    rw [List.map_cons, total_cons, visits, hbelow, ihouter hrest]
    simp only [List.length_cons, List.length_append]
    omega

theorem Preorder.walk_eq (h : Preorder d.childrenOf d.roots met)
    (hchildren : Ascends d.sections.length d.childrenOf)
    (hroots : ∀ i ∈ d.roots, i < d.sections.length) : d.walk = met := by
  have hwalked : d.Walked d.roots met := by simpa using h.walked .done
  have hlength : d.walkLength = met.length :=
    h.total_visits hchildren fun i hi => ⟨hroots i hi, Nat.le_add_left _ _⟩
  exact hwalked.walkFrom_eq hlength.ge

theorem flatMap_ite_eq {q : ℕ} (i : ℕ) {l : List ℕ} (hl : l.Nodup) (hq : q ∈ l) :
    (l.flatMap fun j => if q = j then [i] else []) = [i] := by
  induction l with
  | nil => simp at hq
  | cons j l ih =>
    obtain ⟨hj, hl⟩ := List.nodup_cons.mp hl
    rw [List.flatMap_cons]
    by_cases hqj : q = j
    · have hnone : (l.flatMap fun j => if q = j then [i] else []) = [] := by
        rw [List.flatMap_eq_nil_iff]
        intro k hk
        rw [if_neg]
        rintro rfl
        exact hj (hqj ▸ hk)
      rw [if_pos hqj, hnone, List.append_nil]
    · rw [if_neg hqj, List.nil_append, ih hl ((List.mem_cons.mp hq).resolve_left hqj)]

/-- Places are those of roots and those of children. -/
theorem perm_numbers {places : List Place} {n : ℕ}
    (h : ∀ p ∈ places, ∀ j i, p = .child j i → j < n) :
    (rootsIn places ++ (List.range n).flatMap (childrenIn places)).Perm
      (places.map Place.number) := by
  induction places with
  | nil => simp [rootsIn, childrenIn]
  | cons p places ih =>
    obtain ⟨hp, hplaces⟩ := List.forall_mem_cons.mp h
    cases p with
    | root i => exact (ih hplaces).cons i
    | child q i =>
      have hq : q ∈ List.range n := List.mem_range.mpr (hp q i rfl)
      have hchildren : childrenIn (.child q i :: places) =
          fun j => (if q = j then [i] else []) ++ childrenIn places j := by
        funext j
        by_cases hj : q = j <;> simp [childrenIn, Place.below?, hj]
      have hsplit := (List.flatMap_append_perm (List.range n) (fun j => if q = j then [i] else [])
        (childrenIn places)).symm
      rw [flatMap_ite_eq i List.nodup_range hq] at hsplit
      rw [hchildren, List.map_cons]
      calc rootsIn places ++ _
        _ |>.Perm (rootsIn places ++ (i :: (List.range n).flatMap (childrenIn places))) :=
          hsplit.append_left _
        _ |>.Perm (i :: (rootsIn places ++ (List.range n).flatMap (childrenIn places))) :=
          List.perm_middle
        _ |>.Perm (i :: places.map Place.number) := (ih hplaces).cons i

theorem map_filterMap_of_isSome {α β : Type*} {f : α → Option β} {l : List α}
    (h : ∀ a ∈ l, (f a).isSome) : (l.filterMap f).map some = l.map f := by
  induction l with
  | nil => rfl
  | cons a l ih =>
    obtain ⟨ha, hl⟩ := List.forall_mem_cons.mp h
    obtain ⟨b, hb⟩ := Option.isSome_iff_exists.mp ha
    rw [List.filterMap_cons_some hb, List.map_cons, List.map_cons, ih hl, hb]

namespace Linked

variable {places : List Place}

theorem ascends (h : d.Linked places) : Ascends d.sections.length d.childrenOf := by
  intro j i hi
  rw [h.children_eq, childrenIn, List.mem_filterMap] at hi
  obtain ⟨p, hp, hbelow⟩ := hi
  have hfit := h.fit p hp
  cases p with
  | root k => simp [Place.below?] at hbelow
  | child q k =>
    obtain ⟨rfl, rfl⟩ : q = j ∧ k = i := by simpa [Place.below?] using hbelow
    exact hfit

theorem roots_lt (h : d.Linked places) : ∀ i ∈ d.roots, i < d.sections.length := by
  intro i hi
  rw [h.roots_eq, rootsIn, List.mem_filterMap] at hi
  obtain ⟨p, hp, hroot⟩ := hi
  have hfit := h.fit p hp
  cases p with
  | root k =>
    obtain rfl : k = i := by simpa [Place.root?] using hroot
    exact hfit
  | child q k => simp [Place.root?] at hroot

/-- The links of a document in which each section has one place. -/
theorem perm_links (h : d.Linked places)
    (honce : (places.map Place.number).Perm (List.range d.sections.length)) :
    (d.roots ++ (List.range d.sections.length).flatMap d.childrenOf).Perm
      (List.range d.sections.length) := by
  have hchildren : d.childrenOf = childrenIn places := funext h.children_eq
  rw [h.roots_eq, hchildren]
  refine (perm_numbers fun p hp j i hchild => ?_).trans honce
  subst hchild
  exact (h.fit _ hp).1.trans (h.fit _ hp).2

end Linked

/-- When each section is placed exactly once, as a root or below a section before it, the walk ends
and visits each section once. It comes through the sections as the recursion over the places does,
roots and children in the order in which they were placed, and the sentences of the document are
those of the sections in this order. -/
theorem build_walked {name : Text} {steps : List BuildStep} (h : PlacesOnce name steps) :
    let d := build name steps
    let places := placesFrom { name := name } steps
    (∀ met, d.Walked d.roots met ↔ met = d.walk) ∧
      d.walk.Perm (List.range d.sections.length) ∧
      (∀ met, Preorder (childrenIn places) (rootsIn places) met ↔ met = d.walk) ∧
      d.orderedSections.map some = d.walk.map (d.sections[·]?) ∧
      d.sentences = d.orderedSections.flatMap Section.sentences := by
  intro d places
  have hlinked : d.Linked places := linked_build h.fit
  have hchildren : d.childrenOf = childrenIn places := funext hlinked.children_eq
  obtain ⟨met, hmet⟩ := Preorder.exists_of_ascends hlinked.ascends d.roots
  obtain rfl : d.walk = met := hmet.walk_eq hlinked.ascends hlinked.roots_lt
  have hwalked : d.Walked d.roots d.walk := by simpa using hmet.walked .done
  have hperm := hmet.perm_range hlinked.ascends (hlinked.perm_links h.once)
  rw [← hchildren, ← hlinked.roots_eq]
  refine ⟨fun met => ⟨fun hm => hm.unique hwalked, fun hm => hm ▸ hwalked⟩, hperm,
    fun met => ⟨fun hm => hm.unique hmet, fun hm => hm ▸ hmet⟩, ?_, rfl⟩
  apply map_filterMap_of_isSome
  intro i hi
  rw [List.getElem?_eq_getElem (List.mem_range.mp (hperm.mem_iff.mp hi))]
  rfl

/-- Sections that are placed late and out of order, below a preamble and below each other. -/
theorem build_walked_of_late_places :
    let sentence (t : String) : Sentence := ⟨t.toList, 1, false, []⟩
    let steps : List BuildStep := [.addSentence (sentence "Before."),
      .addSection 2 [sentence "One"], .addSection 1 [sentence "Two"], .addParagraph,
      .attachChild 1 2, .addSentence (sentence "In two."), .addSection 3 [sentence "Three"],
      .addSection 1 [], .addRoot 4, .addList, .attachChild 0 3, .attachChild 0 1]
    let d := build [] steps
    let places := placesFrom { name := [] } steps
    PlacesOnce [] steps ∧ d.walk = [0, 3, 1, 2, 4] ∧
      d.sentences.map (·.content) = ["Before.".toList, "Three".toList, "One".toList, "Two".toList,
        "In two.".toList] ∧
      (∀ met, d.Walked d.roots met ↔ met = d.walk) ∧
      d.walk.Perm (List.range d.sections.length) ∧
      (∀ met, Preorder (childrenIn places) (rootsIn places) met ↔ met = d.walk) ∧
      d.orderedSections.map some = d.walk.map (d.sections[·]?) ∧
      d.sentences = d.orderedSections.flatMap Section.sentences := by
  intro sentence steps d places
  have honce : PlacesOnce [] steps := ⟨by decide, by decide⟩
  exact ⟨honce, by decide, by decide, build_walked honce⟩

end ProseLint.Document
