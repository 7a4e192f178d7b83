import ProseLint.Proofs.Text.Ink

/-!
# Positions in a source

The position of a character is the number of bytes in front of it. A placed text is marked with its
positions; they increase from character to character.
-/
namespace ProseLint
namespace Text

@[simp] theorem byteLength_reverse (t : Text) : byteLength t.reverse = byteLength t := by
  induction t with
  | nil => rfl
  | cons c t ih => simp [ih, Nat.add_comm]

theorem byteLength_pos {t : Text} (h : t ≠ []) : 0 < byteLength t := by
  cases t with
  | nil => exact absurd rfl h
  | cons c t =>
    have hpos := c.utf8Size_pos
    rw [byteLength_cons]
    omega

/-- A text of which each character is marked with its position, the first with `start`. -/
def placed (start : ℕ) : Text → Marked ℕ
  | [] => []
  | c :: t => (c, start) :: placed (start + c.utf8Size) t

@[simp] theorem placed_nil (start : ℕ) : placed start [] = [] := rfl

@[simp] theorem text_placed (start : ℕ) (t : Text) : Marked.text (placed start t) = t := by
  induction t generalizing start with
  | nil => rfl
  | cons c t ih => simp [placed, ih]

theorem placed_append (start : ℕ) (s t : Text) :
    placed start (s ++ t) = placed start s ++ placed (start + byteLength s) t := by
  induction s generalizing start with
  | nil => simp
  | cons c s ih => simp [placed, ih, Nat.add_assoc]

/-- The mark of a character counts the bytes in front of it. -/
theorem exists_of_mem_placed {start : ℕ} {t : Text} {x : Char × ℕ} (h : x ∈ placed start t) :
    ∃ before after, t = before ++ x.1 :: after ∧ x.2 = start + byteLength before := by
  induction t generalizing start with
  | nil => simp at h
  | cons c t ih =>
    rcases List.mem_cons.mp h with rfl | h
    · exact ⟨[], t, rfl, rfl⟩
    · obtain ⟨before, after, rfl, hx⟩ := ih h
      exact ⟨c :: before, after, rfl, by simp [hx, Nat.add_assoc]⟩

theorem le_of_mem_placed {start : ℕ} {t : Text} {x : Char × ℕ} (h : x ∈ placed start t) :
    start ≤ x.2 := by
  obtain ⟨_, _, _, hx⟩ := exists_of_mem_placed h
  omega

/-- Positions increase. -/
theorem pairwise_placed (start : ℕ) (t : Text) :
    (placed start t).Pairwise fun x y => x.2 < y.2 := by
  induction t generalizing start with
  | nil => exact .nil
  | cons c t ih =>
    refine .cons (fun y hy => ?_) (ih _)
    have hle := le_of_mem_placed hy
    have hpos := c.utf8Size_pos
    dsimp only
    omega

end Text
end ProseLint
