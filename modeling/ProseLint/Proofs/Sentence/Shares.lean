import ProseLint.Proofs.Sentence.Weave

/-!
# The shares of sentences in a text

When sentences hold the ink of a marked text in its order, each of them has a share of it: the
stretch of the ink that is the ink of the sentence. The lengths of the sentences determine the
shares, and a text that sentences cover is dealt out to them.
-/
namespace ProseLint

variable {α β : Type*}

/-- The ink of a marked text, dealt out to texts in their order. -/
structure Deals (ts : List Text) (m : Marked α) (shares : List (Marked α)) : Prop where
  flatten_eq : shares.flatten = Marked.ink m
  text_eq : List.Forall₂ (fun t share => Marked.text share = Text.ink t) ts shares

namespace Deals

variable {ts us : List Text} {m n : Marked α} {shares shares' : List (Marked α)}

theorem nil : Deals [] ([] : Marked α) [] := ⟨rfl, .nil⟩

theorem append (h : Deals ts m shares) (h' : Deals us n shares') :
    Deals (ts ++ us) (m ++ n) (shares ++ shares') :=
  ⟨by simp [h.flatten_eq, h'.flatten_eq], List.rel_append h.text_eq h'.text_eq⟩

theorem map_length (h : Deals ts m shares) :
    shares.map List.length = ts.map fun t => (Text.ink t).length := by
  have hshares := h.text_eq
  clear h
  induction hshares with
  | nil => rfl
  | cons htext _ ih => rw [List.map_cons, List.map_cons, ih, ← htext, Marked.length_text]

theorem unique (h : Deals ts m shares) (h' : Deals ts m shares') : shares = shares' := by
  rw [List.eq_iff_flatten_eq, h.flatten_eq, h'.flatten_eq, h.map_length, h'.map_length]
  exact ⟨rfl, rfl⟩

/-- Every share is part of the text. -/
theorem mem_of_mem_share (h : Deals ts m shares) {share : Marked α} (hshare : share ∈ shares)
    {x : Char × α} (hx : x ∈ share) : x ∈ m := by
  have hmem : x ∈ shares.flatten := List.mem_flatten.mpr ⟨share, hshare, hx⟩
  rw [h.flatten_eq] at hmem
  exact List.mem_of_mem_filter hmem

theorem mapMarks (f : α → β) (h : Deals ts m shares) :
    Deals ts (Marked.mapMarks f m) (shares.map (Marked.mapMarks f)) where
  flatten_eq := by
    rw [Marked.ink_mapMarks, ← h.flatten_eq]
    exact List.map_flatten.symm
  text_eq := List.forall₂_map_right_iff.mpr (by simpa using h.text_eq)

end Deals

/-- The sentence that has the character marked with `true` in its share. -/
def HoldsMark (ss : List Sentence) (m : Marked Bool) (s : Sentence) : Prop :=
  ∃ shares share, Deals (ss.map (·.content)) m shares ∧ (s, share) ∈ ss.zip shares ∧
    ∃ x ∈ share, x.2 = true

theorem Woven.exists_deals {line : α → ℕ} {strict : Prop} {bs : List (Text × ℕ)} {m : Marked α}
    (h : Woven line strict bs m) : ∃ shares, Deals (bs.map Prod.fst) m shares := by
  induction h with
  | nil => exact ⟨[], .nil⟩
  | @cons b bs gap stretch m blank fills ends rest ih =>
    obtain ⟨shares, hshares⟩ := ih
    refine ⟨Marked.ink stretch :: shares, ?_, .cons ?_ hshares.text_eq⟩
    · simp [Marked.ink_eq_nil.mpr blank, hshares.flatten_eq]
    · rw [Marked.text_ink, fills.ink_eq]

/-- A text is dealt out to the sentences that cover it. -/
theorem Covered.exists_deals {line : α → ℕ} {strict : Prop} {bs : List (Text × ℕ)} {m : Marked α}
    (h : Covered line strict bs m) : ∃ shares, Deals (bs.map Prod.fst) m shares := by
  obtain ⟨woven, gap, rfl, hwoven, hgap⟩ := h
  obtain ⟨shares, hshares⟩ := hwoven.exists_deals
  exact ⟨shares, by simp [hshares.flatten_eq, Marked.ink_eq_nil.mpr hgap], hshares.text_eq⟩

end ProseLint
