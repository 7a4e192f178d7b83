import ProseLint.Proofs.Markup.Preservation
import ProseLint.Proofs.Markup.WikiLaying

/-!
# Origins in the source

A text is traced by characters that stand in it in this order at the positions that they are marked
with, without a line feed between the beginning of a leaf and its characters. Joining texts joins
their traces, and what is left out of a text does not matter. Where leaves are laid in a source they
trace it, so the ink of a plain text tree and that of a wiki tree trace their sources.
-/
namespace ProseLint.Markup

/-- Characters of a text at `start`, in order, each on the line on which its leaf begins. -/
structure Traces (start : ℕ) (t : Text) (m : Marked Origin) : Prop where
  sublist : (m.map fun x => (x.1, x.2.position)).Sublist (Text.placed start t)
  same_line : ∀ x ∈ m, ∃ before between after, t = before ++ between ++ x.1 :: after ∧
    x.2.leaf = start + Text.byteLength before ∧
    x.2.position = start + Text.byteLength (before ++ between) ∧ '\n' ∉ between

namespace Traces

variable {start : ℕ} {s t : Text} {m n : Marked Origin}

theorem nil (start : ℕ) (t : Text) : Traces start t [] := ⟨by simp, by simp⟩

theorem of_sublist (h : Traces start t n) (hm : m.Sublist n) : Traces start t m :=
  ⟨(hm.map _).trans h.sublist, fun x hx => h.same_line x (hm.subset hx)⟩

theorem ink (h : Traces start t m) : Traces start t (Marked.ink m) :=
  h.of_sublist List.filter_sublist

theorem append (h : Traces start s m) (h' : Traces (start + Text.byteLength s) t n) :
    Traces start (s ++ t) (m ++ n) := by
  constructor
  · rw [List.map_append, Text.placed_append]
    exact h.sublist.append h'.sublist
  · intro x hx
    rcases List.mem_append.mp hx with hx | hx
    · obtain ⟨before, between, after, rfl, hleaf, hposition, hbetween⟩ := h.same_line x hx
      exact ⟨before, between, after ++ t, by simp, hleaf, hposition, hbetween⟩
    · obtain ⟨before, between, after, rfl, hleaf, hposition, hbetween⟩ := h'.same_line x hx
      refine ⟨s ++ before, between, after, by simp, ?_, ?_, hbetween⟩
      · rw [hleaf, Text.byteLength_append, Nat.add_assoc]
      · rw [hposition, List.append_assoc, Text.byteLength_append s, Nat.add_assoc]

/-- The text in front may be left out. -/
theorem skip (s : Text) (h : Traces (start + Text.byteLength s) t m) : Traces start (s ++ t) m :=
  (nil start s).append h

/-- The text behind may be left out. -/
theorem extend (h : Traces start s m) (t : Text) : Traces start (s ++ t) m := by
  simpa using h.append (nil _ t)

end Traces

/-- A leaf that is a stretch of one line traces that stretch. -/
theorem traces_leaf (l : Leaf) (h : '\n' ∉ l.content) : Traces l.offset l.content l.chars := by
  constructor
  · rw [Leaf.chars, List.map_map]
    simp [Function.comp_def]
  · intro x hx
    obtain ⟨y, hy, rfl⟩ := List.mem_map.mp hx
    obtain ⟨before, after, hcontent, hposition⟩ := Text.exists_of_mem_placed hy
    refine ⟨[], before, after, hcontent, rfl, hposition, fun hmem => h ?_⟩
    rw [hcontent]
    exact List.mem_append_left _ hmem

/-- Leaves that are laid in a text trace it in their ink. -/
theorem Lays.traces {start : ℕ} {t : Text} {ls : List Leaf} (h : Lays start t ls) :
    Traces start t (Marked.ink (ls.flatMap Leaf.chars)) := by
  induction h with
  | nil start t => exact .nil start t
  | @stretch start before after l ls copied _ hline _ ih =>
    have hoffset : l.offset = start + Text.byteLength before := by
      rcases copied with hl | hl <;> rw [hl] <;> rfl
    have hleaf := (traces_leaf l hline).ink
    rw [hoffset] at hleaf
    rw [List.flatMap_cons, Marked.ink_append]
    exact .skip before (hleaf.append ih)
  | @joiner start before after ls _ _ ih =>
    -- the space between two lines is no ink
    have hblank : Marked.ink (Leaf.text (start + Text.byteLength before) [' ']).chars = [] := by
      rw [Marked.ink_eq_nil, Marked.blank_iff_text, Leaf.text_chars]
      simp [Leaf.content, isBlank]
    have hfeed : Text.byteLength ['\n'] = 1 := rfl
    rw [List.flatMap_cons, Marked.ink_append, hblank, List.nil_append]
    refine .skip before (.skip ['\n'] ?_)
    rwa [hfeed]

theorem Node.chars_eq (n : Node) : n.chars = n.shown.flatMap Leaf.chars := by
  rw [Node.chars, Node.shown]
  induction n.leaves with
  | nil => rfl
  | cons l ls ih => cases l <;> simp [Leaf.isOmitted, ih, Leaf.chars, Leaf.content]

/-- The ink of a plain text tree traces the source. -/
theorem Plain.traces_read (source : Text) : Traces 0 source (Marked.ink (read source).chars) := by
  rw [Node.chars_eq]
  exact (lays_read source).traces

/-- The ink of a wiki tree traces the source. -/
theorem Wiki.traces_read (source : Text) : Traces 0 source (Marked.ink (read source).chars) := by
  rw [Node.chars_eq]
  exact (lays_read source).traces

end ProseLint.Markup
