import Mathlib.Data.List.Sort
import ProseLint.Proofs.Document.Nesting
import ProseLint.Proofs.Document.Prose

/-!
# The walk of a nested document

The walk of a nested document meets the sections in the order of their numbers. When the sections
before `k` have been visited, those ahead on the stack are the ones from `k` on whose parent is
before `k`: the next of them is `k` itself, and in its place come its children.
-/
namespace ProseLint.Document

theorem filterMap_getElem?_range {α : Type*} (l : List α) :
    ((List.range l.length).filterMap fun i => l[i]?) = l := by
  induction l using List.reverseRecOn with
  | nil => rfl
  | append_singleton l a ih =>
    have hinit : ((List.range l.length).filterMap fun i => (l ++ [a])[i]?) = l := by
      conv_rhs => rw [← ih]
      apply List.filterMap_congr
      intro i hi
      rw [List.getElem?_append_left (List.mem_range.mp hi)]
    simp [List.range_succ, hinit]

/-- The sections from `k` on whose parent, if any, is before `k`. -/
def ahead (d : Document) (k : ℕ) : List ℕ :=
  (List.range d.sections.length).filter fun m => k ≤ m ∧ ∀ p ∈ d.parentOf m, p < k

/-- The sections behind `k` whose parent, if any, is before `k`. -/
def beyond (d : Document) (k : ℕ) : List ℕ :=
  (List.range d.sections.length).filter fun m => k < m ∧ ∀ p ∈ d.parentOf m, p < k

/-- The number of sections at or below a section. -/
def size (d : Document) (i : ℕ) : ℕ := d.visits (d.sections.length - i) i

namespace Nested

variable {d : Document} {i j k m : ℕ}

theorem mem_childrenOf (h : d.Nested) (hk : k < d.sections.length) :
    m ∈ d.childrenOf k ↔ m < d.sections.length ∧ d.parentOf m = some k := by
  rw [h.children_eq k hk]
  simp

theorem ahead_zero (h : d.Nested) : d.ahead 0 = d.roots := by
  rw [h.roots_eq, ahead]
  apply List.filter_congr
  intro m _
  cases d.parentOf m <;> simp

theorem ahead_length (d : Document) : d.ahead d.sections.length = [] := by
  simp only [ahead, List.filter_eq_nil_iff, List.mem_range, decide_eq_true_eq, not_and]
  intro m hm hle
  omega

/-- A section that is not below `k` is behind all that are. -/
theorem lt_of_parent (h : d.Nested) (hi : i < d.sections.length) (hj : j < d.sections.length)
    (hp : d.parentOf i = some k) (hkj : k < j) (hq : ∀ p ∈ d.parentOf j, p < k) : i < j := by
  obtain ⟨hki, hlevel, hbetween⟩ := (h.parent_spec hi).mp hp
  have hjk : d.levelOf j ≤ d.levelOf k := by
    cases hpj : d.parentOf j with
    | none => exact (h.no_parent_spec hj).mp hpj k hkj
    | some p => exact ((h.parent_spec hj).mp hpj).2.2 k (hq p hpj) hkj
  by_contra hij
  rcases Nat.lt_or_eq_of_le (Nat.not_lt.mp hij) with hlt | rfl
  · have := hbetween j hkj hlt
    omega
  · omega

theorem ahead_eq_cons (h : d.Nested) (hk : k < d.sections.length) :
    d.ahead k = k :: d.beyond k := by
  apply List.Pairwise.eq_of_mem_iff (r := (· < ·))
  · exact List.pairwise_lt_range.filter _
  · rw [List.pairwise_cons]
    refine ⟨fun m hm => ?_, List.pairwise_lt_range.filter _⟩
    simp only [beyond, List.mem_filter, decide_eq_true_eq] at hm
    exact hm.2.1
  · intro m
    simp only [ahead, beyond, List.mem_filter, List.mem_range, List.mem_cons, decide_eq_true_eq]
    constructor
    · rintro ⟨hm, hkm, hp⟩
      rcases Nat.lt_or_eq_of_le hkm with hlt | rfl
      · exact .inr ⟨hm, hlt, hp⟩
      · exact .inl rfl
    · rintro (rfl | ⟨hm, hlt, hp⟩)
      · exact ⟨hk, le_rfl, fun p hp => h.parent_lt hp⟩
      · exact ⟨hm, hlt.le, hp⟩

theorem ahead_succ (h : d.Nested) (hk : k < d.sections.length) :
    d.ahead (k + 1) = d.childrenOf k ++ d.beyond k := by
  apply List.Pairwise.eq_of_mem_iff (r := (· < ·))
  · exact List.pairwise_lt_range.filter _
  · rw [List.pairwise_append]
    refine ⟨?_, List.pairwise_lt_range.filter _, fun i hi j hj => ?_⟩
    · rw [h.children_eq k hk]
      exact List.pairwise_lt_range.filter _
    · rw [h.mem_childrenOf hk] at hi
      simp only [beyond, List.mem_filter, List.mem_range, decide_eq_true_eq] at hj
      exact h.lt_of_parent hi.1 hj.1 hi.2 hj.2.1 hj.2.2
  · intro m
    rw [List.mem_append, h.mem_childrenOf hk]
    simp only [ahead, beyond, List.mem_filter, List.mem_range, decide_eq_true_eq]
    constructor
    · rintro ⟨hm, hkm, hp⟩
      by_cases hc : d.parentOf m = some k
      · exact .inl ⟨hm, hc⟩
      · refine .inr ⟨hm, hkm, fun p hpm => ?_⟩
        have hne : p ≠ k := fun he => hc (he ▸ hpm)
        have := hp p hpm
        omega
    · rintro (⟨hm, hp⟩ | ⟨hm, hlt, hp⟩)
      · refine ⟨hm, h.parent_lt hp, fun p hpm => ?_⟩
        rw [hp, Option.mem_some_iff] at hpm
        omega
      · exact ⟨hm, hlt, fun p hpm => Nat.lt_succ_of_lt (hp p hpm)⟩

theorem walkFrom_ahead (h : d.Nested) {fuel : ℕ} (hk : k ≤ d.sections.length)
    (hfuel : d.sections.length - k ≤ fuel) :
    d.walkFrom fuel (d.ahead k) = List.range' k (d.sections.length - k) := by
  induction fuel generalizing k with
  | zero =>
    rw [Nat.le_zero.mp hfuel]
    rfl
  | succ fuel ih =>
    rcases Nat.lt_or_eq_of_le hk with hlt | rfl
    · have hsub : d.sections.length - k = (d.sections.length - (k + 1)) + 1 := by omega
      rw [h.ahead_eq_cons hlt, walkFrom, ← h.ahead_succ hlt, ih hlt (by omega), hsub,
        List.range'_succ]
    · rw [ahead_length, Nat.sub_self]
      rfl

/-- A greater depth pays no more visits. -/
theorem visits_eq_size (h : d.Nested) {depth : ℕ} (hi : i < d.sections.length)
    (hdepth : d.sections.length - i ≤ depth) : d.visits depth i = d.size i := by
  induction depth using Nat.strong_induction_on generalizing i with
  | h depth ih =>
    obtain ⟨e, he⟩ : ∃ e, d.sections.length - i = e + 1 := ⟨d.sections.length - i - 1, by omega⟩
    obtain ⟨depth, rfl⟩ : ∃ e, depth = e + 1 := ⟨depth - 1, by omega⟩
    rw [size, he, visits, visits]
    congr 2
    apply List.map_congr_left
    intro c hc
    obtain ⟨hcn, hp⟩ := (h.mem_childrenOf hi).mp hc
    have hlt := h.parent_lt hp
    rw [ih depth (by omega) hcn (by omega), ih e (by omega) hcn (by omega)]

theorem size_eq (h : d.Nested) (hi : i < d.sections.length) :
    d.size i = 1 + total ((d.childrenOf i).map d.size) := by
  obtain ⟨e, he⟩ : ∃ e, d.sections.length - i = e + 1 := ⟨d.sections.length - i - 1, by omega⟩
  rw [size, he, visits]
  congr 2
  apply List.map_congr_left
  intro c hc
  obtain ⟨hcn, hp⟩ := (h.mem_childrenOf hi).mp hc
  have hlt := h.parent_lt hp
  exact h.visits_eq_size hcn (by omega)

theorem total_size_ahead (h : d.Nested) (hk : k ≤ d.sections.length) :
    total ((d.ahead k).map d.size) = d.sections.length - k := by
  induction hk using Nat.decreasingInduction with
  | self => simp [ahead_length]
  | of_succ k hk ih =>
    rw [h.ahead_succ hk, List.map_append, total_append] at ih
    rw [h.ahead_eq_cons hk, List.map_cons, total_cons, h.size_eq hk]
    omega

theorem walkLength_eq (h : d.Nested) : d.walkLength = d.sections.length := by
  have htotal := h.total_size_ahead (Nat.zero_le _)
  rw [h.ahead_zero] at htotal
  rw [walkLength, ← Nat.sub_zero d.sections.length, ← htotal]
  congr 1
  apply List.map_congr_left
  intro r hr
  rw [h.roots_eq, List.mem_filter, List.mem_range] at hr
  rw [htotal, Nat.sub_zero]
  exact h.visits_eq_size hr.1 (by omega)

theorem walk_eq_range (h : d.Nested) : d.walk = List.range d.sections.length := by
  rw [walk, h.walkLength_eq, ← h.ahead_zero, h.walkFrom_ahead (Nat.zero_le _) (by omega),
    List.range_eq_range', Nat.sub_zero]

theorem orderedSections_eq (h : d.Nested) : d.orderedSections = d.sections := by
  rw [orderedSections, h.walk_eq_range, filterMap_getElem?_range]

/-- In a nested document the reading order is the order in which the sentences were added. -/
theorem map_body_sentences (h : d.Nested) : d.sentences.map Sentence.body = d.prose := by
  rw [sentences, h.orderedSections_eq, List.map_flatMap]
  rfl

theorem map_unflagged_sentences (h : d.Nested) :
    d.sentences.map Sentence.unflagged = d.added := by
  rw [sentences, h.orderedSections_eq, List.map_flatMap]
  rfl

end Nested
end ProseLint.Document
