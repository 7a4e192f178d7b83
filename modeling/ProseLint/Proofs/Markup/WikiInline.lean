import ProseLint.Markup.Wiki
import ProseLint.Proofs.Markup.Places
import ProseLint.Proofs.Text.Position

/-!
# Inline markup of the wiki dialect, piece by piece

A piece at the front of a text gives one node, and the text goes on behind it; where no piece
starts, a character is passed on. What holds of the nodes of a text is proved along this reading.
-/
namespace ProseLint.Markup.Wiki

theorem exists_of_labelled? {t rest : Text} {p : Piece} (h : labelled? t = some (p, rest)) :
    ∃ tail, t = p.body ++ tail ++ rest := by
  simp only [labelled?, Option.bind_eq_bind, Option.bind_eq_some_iff, Prod.exists] at h
  obtain ⟨inner, after, hinner, label, url, hlabel, h⟩ := h
  split at h
  · simp at h
  · simp only [Option.some.injEq, Prod.mk.injEq] at h
    obtain ⟨rfl, rfl⟩ := h
    refine ⟨'|' :: url ++ [']'], ?_⟩
    rw [(of_cutAt? hinner).1, (of_cutAt? hlabel).1]
    simp [Piece.body]

theorem exists_of_address? {t rest : Text} {p : Piece} (h : address? t = some (p, rest)) :
    ∃ tail, t = p.body ++ tail ++ rest := by
  simp only [address?, Option.bind_eq_bind, Option.bind_eq_some_iff, Prod.exists] at h
  obtain ⟨url, after, hurl, h⟩ := h
  split at h
  · simp only [Option.some.injEq, Prod.mk.injEq] at h
    obtain ⟨rfl, rfl⟩ := h
    exact ⟨[']'], by rw [(of_cutAt? hurl).1]; simp [Piece.body]⟩
  · simp at h

theorem exists_of_emphasis? {mark : Char} {t rest : Text} {p : Piece}
    (h : emphasis? mark t = some (p, rest)) : ∃ tail, t = p.body ++ tail ++ rest := by
  simp only [emphasis?, Option.bind_eq_bind, Option.bind_eq_some_iff, Prod.exists] at h
  obtain ⟨inner, after, hinner, h⟩ := h
  split at h
  · simp at h
  · simp only [Option.some.injEq, Prod.mk.injEq] at h
    obtain ⟨rfl, rfl⟩ := h
    exact ⟨[mark], by rw [(of_cutAt? hinner).1]; simp [Piece.body]⟩

theorem body_ne_nil_of_piece? {t rest : Text} {p : Piece} (h : piece? t = some (p, rest)) :
    p.body ≠ [] := by
  cases t with
  | nil => simp [piece?] at h
  | cons c t =>
    rw [piece?] at h
    split at h
    · rw [Option.or_eq_some_iff] at h
      rcases h with h | ⟨-, h⟩
      · simp only [labelled?, Option.bind_eq_bind, Option.bind_eq_some_iff, Prod.exists] at h
        obtain ⟨inner, after, -, label, url, -, h⟩ := h
        split at h
        · simp at h
        · rename_i hempty
          simp only [Option.some.injEq, Prod.mk.injEq] at h
          obtain ⟨rfl, rfl⟩ := h
          rintro hnil
          simp_all [Piece.body]
      · simp only [address?, Option.bind_eq_bind, Option.bind_eq_some_iff, Prod.exists] at h
        obtain ⟨url, after, -, h⟩ := h
        split at h
        · rename_i haddress
          simp only [Option.some.injEq, Prod.mk.injEq] at h
          obtain ⟨rfl, rfl⟩ := h
          rintro hnil
          simp_all [Piece.body, isAddress]
        · simp at h
    · split at h
      · simp only [emphasis?, Option.bind_eq_bind, Option.bind_eq_some_iff, Prod.exists] at h
        obtain ⟨inner, after, -, h⟩ := h
        split at h
        · simp at h
        · rename_i hempty
          simp only [Option.some.injEq, Prod.mk.injEq] at h
          obtain ⟨rfl, rfl⟩ := h
          simpa [Piece.body] using hempty
      · simp at h

/-- A piece stands behind a mark of one byte. -/
theorem exists_of_piece? {t rest : Text} {p : Piece} (h : piece? t = some (p, rest)) :
    ∃ mark tail, t = mark :: (p.body ++ tail ++ rest) ∧ mark.utf8Size = 1 := by
  cases t with
  | nil => simp [piece?] at h
  | cons c t =>
    rw [piece?] at h
    split at h
    · rename_i hc
      rw [Option.or_eq_some_iff] at h
      rcases h with h | ⟨_, h⟩
      · obtain ⟨tail, rfl⟩ := exists_of_labelled? h
        exact ⟨c, tail, rfl, by rw [hc]; rfl⟩
      · obtain ⟨tail, rfl⟩ := exists_of_address? h
        exact ⟨c, tail, rfl, by rw [hc]; rfl⟩
    · split at h
      · rename_i hc
        obtain ⟨tail, rfl⟩ := exists_of_emphasis? h
        refine ⟨c, tail, rfl, ?_⟩
        rcases hc with rfl | rfl <;> rfl
      · simp at h

/-- The node of a piece that starts at an offset. -/
def Piece.toNode (start : ℕ) : Piece → Node
  | link label url => .container (.link (Text.trim url)) [.text (start + 1) label]
  | address url => .leaf (.autolink (start + 1) url)
  | emphasis inner => .container .emphasis (inline (start + 1) inner)

theorem inlineFrom_of_some (offset : ℕ) (plain : Text) {t rest : Text} {p : Piece}
    (h : piece? t = some (p, rest)) :
    inlineFrom offset plain t = textLeaf offset plain.reverse ++
      p.toNode (offset + Text.byteLength plain) :: inline (offset + Text.byteLength plain +
        (Text.byteLength t - Text.byteLength rest)) rest := by
  rw [inlineFrom]
  split
  · rename_i p' rest' h'
    obtain ⟨rfl, rfl⟩ : p = p' ∧ rest = rest' := by simpa [h] using h'
    cases p <;> rfl
  · rename_i h'
    simp [h] at h'

theorem inlineFrom_of_none (offset : ℕ) (plain : Text) {c : Char} {t : Text}
    (h : piece? (c :: t) = none) :
    inlineFrom offset plain (c :: t) = inlineFrom offset (c :: plain) t := by
  conv_lhs => rw [inlineFrom]
  split
  · rename_i h'
    simp [h] at h'
  · rfl

@[simp] theorem inlineFrom_nil (offset : ℕ) (plain : Text) :
    inlineFrom offset plain [] = textLeaf offset plain.reverse := by
  rw [inlineFrom]
  split
  · rename_i h
    simp [piece?] at h
  · rfl

/-- Proofs along the reading of a text: at a piece from its body and from the text behind it, else
from the text behind one more plain character. -/
theorem reading_induction {motive : Text → Prop}
    (piece : ∀ {t rest : Text} {p : Piece}, piece? t = some (p, rest) → motive p.body →
      motive rest → motive t)
    (pass : ∀ {c : Char} {t : Text}, piece? (c :: t) = none → motive t → motive (c :: t))
    (nil : motive []) (t : Text) : motive t := by
  induction hn : t.length using Nat.strong_induction_on generalizing t with
  | _ n ih =>
    subst hn
    cases hp : piece? t with
    | some found =>
      obtain ⟨hbody, hrest⟩ := length_of_piece? hp
      exact piece hp (ih _ hbody _ rfl) (ih _ hrest _ rfl)
    | none =>
      cases t with
      | nil => exact nil
      | cons c t => exact pass hp (ih _ (by simp) t rfl)

theorem allInline_append (ns ns' : List Node) :
    Node.allInline (ns ++ ns') = (Node.allInline ns && Node.allInline ns') := by
  induction ns with
  | nil => rfl
  | cons n ns ih => simp [Node.allInline, ih, Bool.and_assoc]

/-- The nodes of a text are inline nodes. -/
theorem allInline_inlineFrom (offset : ℕ) (plain t : Text) :
    Node.allInline (inlineFrom offset plain t) = true := by
  have htext : ∀ (offset : ℕ) (t : Text), Node.allInline (textLeaf offset t) = true := by
    intro offset t
    unfold textLeaf
    split <;> rfl
  induction t using reading_induction generalizing offset plain with
  | @piece t rest p h ihbody ihrest =>
    have hnode : (p.toNode (offset + Text.byteLength plain)).isInline = true := by
      cases p with
      | link label url => rfl
      | address url => rfl
      | emphasis inner => exact ihbody _ []
    rw [inlineFrom_of_some offset plain h, allInline_append, htext, Node.allInline, hnode]
    exact ihrest _ []
  | pass h ih =>
    rw [inlineFrom_of_none offset plain h]
    exact ih _ _
  | nil => rw [inlineFrom_nil, htext]

end ProseLint.Markup.Wiki
