import ProseLint.Proofs.Markup.WikiInline

/-!
# Labelled links in a wiki text

Links and emphasis compete for the characters of a line, and the piece that starts first wins. An
asterisk or underscore in front of a link can pair with one inside it, and the link is cut in two.
Nothing else can take a link apart: it is recognised exactly when no mark that the text in front
leaves open occurs in its label or its url.
-/
namespace ProseLint.Markup.Wiki

/-- A mark of emphasis. -/
def IsMark (c : Char) : Prop := c = '*' ∨ c = '_'

namespace IsMark

variable {c : Char}

instance (c : Char) : Decidable (IsMark c) := inferInstanceAs (Decidable (c = '*' ∨ c = '_'))

theorem utf8Size_eq (h : IsMark c) : c.utf8Size = 1 := by
  rcases h with rfl | rfl <;> rfl

/-- A mark is no delimiter of a link. -/
theorem ne_delimiter (h : IsMark c) : c ≠ '[' ∧ c ≠ '|' ∧ c ≠ ']' := by
  rcases h with rfl | rfl <;> decide

end IsMark

section

variable {mark : Char} {t a : Text}

theorem cutAt?_append (h : mark ∉ a) (b : Text) : cutAt? mark (a ++ mark :: b) = some (a, b) := by
  induction a with
  | nil => simp [cutAt?]
  | cons c a ih =>
    simp only [List.mem_cons, not_or] at h
    simp [cutAt?, Ne.symm h.1, ih h.2]

theorem cutAt?_eq_none (h : mark ∉ t) : cutAt? mark t = none := by
  induction t with
  | nil => rfl
  | cons c t ih =>
    simp only [List.mem_cons, not_or] at h
    simp [cutAt?, Ne.symm h.1, ih h.2]

end

/-- A label and a url that a link can have. -/
structure Linkable (l u : Text) : Prop where
  label_ne_nil : l ≠ []
  label_plain : ']' ∉ l ∧ '|' ∉ l
  url_ne_nil : u ≠ []
  url_plain : ']' ∉ u

/-- A labelled link, written out in front of a text. -/
def linkText (l u s : Text) : Text := '[' :: (l ++ '|' :: (u ++ ']' :: s))

section

variable {c : Char} {l u t a rest : Text}

theorem Linkable.piece?_linkText (h : Linkable l u) (s : Text) :
    piece? (linkText l u s) = some (.link l u, s) := by
  have hinner : ']' ∉ l ++ '|' :: u := by simp [h.label_plain.1, h.url_plain]
  have hcut : cutAt? ']' (l ++ '|' :: (u ++ ']' :: s)) = some (l ++ '|' :: u, s) := by
    simpa using cutAt?_append hinner s
  simp [piece?, linkText, labelled?, hcut, cutAt?_append h.label_plain.2, h.label_ne_nil,
    h.url_ne_nil]

theorem eq_of_labelled? (h : labelled? t = some (.link l u, rest)) :
    t = l ++ '|' :: (u ++ ']' :: rest) := by
  simp only [labelled?, Option.bind_eq_bind, Option.bind_eq_some_iff, Prod.exists] at h
  obtain ⟨inner, after, hinner, label, url, hlabel, h⟩ := h
  split at h
  · simp at h
  · simp only [Option.some.injEq, Prod.mk.injEq, Piece.link.injEq] at h
    obtain ⟨⟨rfl, rfl⟩, rfl⟩ := h
    rw [(of_cutAt? hinner).1, (of_cutAt? hlabel).1]
    simp

/-- A labelled link at the front is the text of its label and url between brackets. -/
theorem eq_of_piece?_link (h : piece? t = some (.link l u, rest)) :
    t = linkText l u rest := by
  cases t with
  | nil => simp [piece?] at h
  | cons c t =>
    rw [piece?] at h
    split at h
    · rename_i hc
      rw [Option.or_eq_some_iff] at h
      rcases h with h | ⟨-, h⟩
      · rw [hc, eq_of_labelled? h, linkText]
      · simp [address?, Option.bind_eq_some_iff] at h
    · split at h
      · simp [emphasis?, Option.bind_eq_some_iff] at h
      · simp at h

theorem piece?_of_mark (hc : IsMark c) (t : Text) : piece? (c :: t) = emphasis? c t := by
  simp only [piece?, if_neg hc.ne_delimiter.1]
  exact if_pos hc

theorem piece?_emphasis (hc : IsMark c) (hne : a ≠ []) (ha : c ∉ a) (b : Text) :
    piece? (c :: (a ++ c :: b)) = some (.emphasis a, b) := by
  simp [piece?_of_mark hc, emphasis?, cutAt?_append ha, hne]

/-- Two marks of a kind with nothing between them start no emphasis. -/
theorem piece?_doubled (hc : IsMark c) (t : Text) : piece? (c :: c :: t) = none := by
  simp [piece?_of_mark hc, emphasis?, cutAt?]

theorem piece?_unclosed (hc : IsMark c) (h : c ∉ t) : piece? (c :: t) = none := by
  simp [piece?_of_mark hc, emphasis?, cutAt?_eq_none h]

theorem piece?_plain (hbracket : c ≠ '[') (hc : ¬IsMark c) (t : Text) :
    piece? (c :: t) = none := by
  simp only [piece?, if_neg hbracket]
  exact if_neg hc

/-- Without an opening bracket a piece is an emphasis. -/
theorem exists_of_piece?_of_not_mem {p : Piece} (h : piece? t = some (p, rest)) (ht : '[' ∉ t) :
    ∃ c a, IsMark c ∧ a ≠ [] ∧ c ∉ a ∧ t = c :: (a ++ c :: rest) ∧ p = .emphasis a := by
  cases t with
  | nil => simp [piece?] at h
  | cons c t =>
    have hbracket : c ≠ '[' := fun hc => ht (hc ▸ List.mem_cons_self)
    rw [piece?, if_neg hbracket] at h
    split at h
    · rename_i hc
      simp only [emphasis?, Option.bind_eq_bind, Option.bind_eq_some_iff, Prod.exists] at h
      obtain ⟨a, after, hcut, h⟩ := h
      split at h
      · simp at h
      · rename_i hne
        simp only [Option.some.injEq, Prod.mk.injEq] at h
        obtain ⟨rfl, rfl⟩ := h
        obtain ⟨rfl, ha⟩ := of_cutAt? hcut
        exact ⟨c, a, hc, by simpa using hne, ha, rfl, rfl⟩
    · simp at h

/-- Where no piece starts, none starts when more text follows, unless a mark waits for another. -/
theorem piece?_append (h : piece? (c :: t) = none) (hbracket : c ≠ '[')
    (hc : ¬(IsMark c ∧ c ∉ t)) (s : Text) : piece? (c :: (t ++ s)) = none := by
  by_cases hmark : IsMark c
  · have hmem : c ∈ t := by simpa [hmark] using hc
    obtain ⟨a, b, rfl, ha⟩ := List.eq_append_cons_of_mem hmem
    obtain rfl : a = [] := by
      by_contra hne
      simp [piece?_emphasis hmark hne ha] at h
    exact piece?_doubled hmark _
  · exact piece?_plain hbracket hmark _

end

/-! ## The nodes of a text -/

/-- A node stands among others, or inside an emphasis that does. -/
inductive Stands (n : Node) : List Node → Prop
  | here {ns : List Node} (h : n ∈ ns) : Stands n ns
  | inside {ns children : List Node} (h : .container .emphasis children ∈ ns)
      (standing : Stands n children) : Stands n ns

/-- The node of a labelled link whose label is at an offset. -/
def labelledLink (offset : ℕ) (label url : Text) : Node :=
  .container (.link (Text.trim url)) [.text offset label]

section

variable {n : Node} {offset place : ℕ} {ns ns' : List Node} {plain t rest l u : Text} {p : Piece}

theorem stands_append : Stands n (ns ++ ns') ↔ Stands n ns ∨ Stands n ns' := by
  constructor
  · rintro (h | ⟨h, hinside⟩)
    · exact (List.mem_append.mp h).imp .here .here
    · exact (List.mem_append.mp h).imp (.inside · hinside) (.inside · hinside)
  · rintro ((h | ⟨h, hinside⟩) | (h | ⟨h, hinside⟩))
    · exact .here (List.mem_append_left _ h)
    · exact .inside (List.mem_append_left _ h) hinside
    · exact .here (List.mem_append_right _ h)
    · exact .inside (List.mem_append_right _ h) hinside

theorem stands_cons {m : Node} : Stands n (m :: ns) ↔ Stands n [m] ∨ Stands n ns :=
  @stands_append n [m] ns

theorem stands_emphasis (hn : ∀ children, n ≠ .container .emphasis children) :
    Stands n [.container .emphasis ns] ↔ Stands n ns := by
  refine ⟨fun h => ?_, .inside List.mem_cons_self⟩
  cases h with
  | here h => exact absurd (List.mem_singleton.mp h) (hn ns)
  | inside h hinside =>
    obtain rfl : _ = ns := by simpa using h
    exact hinside

theorem not_stands_leaf (hn : ∀ l, n ≠ .leaf l) (l : Leaf) : ¬Stands n [.leaf l] := by
  intro h
  cases h with
  | here h => exact hn l (List.mem_singleton.mp h)
  | inside h => simp at h

theorem labelledLink_ne_leaf (l' : Leaf) : labelledLink place l u ≠ .leaf l' := by
  simp [labelledLink]

theorem not_stands_textLeaf (t : Text) :
    ¬Stands (labelledLink place l u) (textLeaf offset t) := by
  unfold textLeaf
  split
  · rintro (h | ⟨h, -⟩) <;> simp at h
  · exact not_stands_leaf labelledLink_ne_leaf _

/-- A link stands among the nodes of a text as its first piece, inside it, or behind it. -/
theorem stands_inlineFrom_of_some (h : piece? t = some (p, rest)) :
    Stands (labelledLink place l u) (inlineFrom offset plain t) ↔
      Stands (labelledLink place l u) [p.toNode (offset + Text.byteLength plain)] ∨
      Stands (labelledLink place l u) (inline (offset + Text.byteLength plain +
        (Text.byteLength t - Text.byteLength rest)) rest) := by
  rw [inlineFrom_of_some offset plain h, stands_append, stands_cons,
    or_iff_right (not_stands_textLeaf _)]

theorem stands_emphasis_node {inner : Text} {start : ℕ} :
    Stands (labelledLink place l u) [(Piece.emphasis inner).toNode start] ↔
      Stands (labelledLink place l u) (inline (start + 1) inner) :=
  stands_emphasis (by simp [labelledLink])

theorem eq_of_stands_link {label url : Text} {start : ℕ}
    (h : Stands (labelledLink place l u) [(Piece.link label url).toNode start]) :
    place = start + 1 ∧ l = label := by
  cases h with
  | here h =>
    simp only [labelledLink, Piece.toNode, Node.text, List.mem_singleton, Node.container.injEq,
      List.cons.injEq, Node.leaf.injEq, Leaf.text.injEq] at h
    exact h.2.1
  | inside h => simp [Piece.toNode] at h

/-- A link that stands among the nodes of a text is written out in it. -/
theorem exists_of_stands (h : Stands (labelledLink place l u) (inlineFrom offset plain t)) :
    ∃ a u' s, t = a ++ linkText l u' s ∧
      place = offset + Text.byteLength plain + Text.byteLength a + 1 := by
  induction t using reading_induction generalizing offset plain with
  | @piece t rest p hp ihbody ihrest =>
    obtain ⟨mark, tail, ht, hmark⟩ := exists_of_piece? hp
    rw [stands_inlineFrom_of_some hp] at h
    rcases h with h | h
    · cases p with
      | link label url =>
        obtain ⟨hplace, rfl⟩ := eq_of_stands_link h
        exact ⟨[], url, rest, eq_of_piece?_link hp, by simpa using hplace⟩
      | address url => exact absurd h (not_stands_leaf labelledLink_ne_leaf _)
      | emphasis inner =>
        rw [stands_emphasis_node] at h
        obtain ⟨a, u', s, hinner, hplace⟩ := ihbody h
        rw [Piece.body] at ht hinner
        refine ⟨mark :: a, u', s ++ (tail ++ rest), ?_, ?_⟩
        · rw [ht, hinner]
          simp [linkText]
        · rw [hplace, Text.byteLength_cons, hmark, Text.byteLength_nil]
          omega
    · obtain ⟨a, u', s, hs, hplace⟩ := ihrest h
      refine ⟨mark :: (p.body ++ tail ++ a), u', s, ?_, ?_⟩
      · rw [ht, hs]
        simp
      · rw [hplace, ht]
        simp only [Text.byteLength_cons, Text.byteLength_append, Text.byteLength_nil]
        omega
  | @pass c t hp ih =>
    rw [inlineFrom_of_none offset plain hp] at h
    obtain ⟨a, u', s, ht, hplace⟩ := ih h
    refine ⟨c :: a, u', s, by rw [ht, List.cons_append], ?_⟩
    rw [hplace, Text.byteLength_cons, Text.byteLength_cons]
    omega
  | nil =>
    rw [inlineFrom_nil] at h
    exact absurd h (not_stands_textLeaf _)

theorem not_stands_of_not_mem (h : '[' ∉ t) :
    ¬Stands (labelledLink place l u) (inlineFrom offset plain t) := by
  intro hstands
  obtain ⟨a, u', s, rfl, -⟩ := exists_of_stands hstands
  simp [linkText] at h

/-- Behind an opening bracket that is never closed no link is recognised. -/
theorem not_stands_of_unclosed {front inside : Text} (hfront : '[' ∉ front)
    (hinside : ']' ∉ inside) :
    ¬Stands (labelledLink place l u) (inlineFrom offset plain (front ++ '[' :: inside)) := by
  intro hstands
  obtain ⟨a, u', s, h, -⟩ := exists_of_stands hstands
  rw [linkText] at h
  rcases List.append_eq_append_iff.mp h with ⟨x, -, hx⟩ | ⟨x, rfl, hx⟩
  · cases x <;> simp_all
  · cases x with
    | nil =>
      simp only [List.nil_append, List.cons.injEq, true_and] at hx
      simp [← hx] at hinside
    | cons c x => simp_all

/-- The nodes of a text behind an offset have no link in front of it. -/
theorem not_stands_of_le (h : place ≤ offset + Text.byteLength plain) :
    ¬Stands (labelledLink place l u) (inlineFrom offset plain t) := by
  intro hstands
  obtain ⟨a, -, -, -, hplace⟩ := exists_of_stands hstands
  omega

end

/-! ## Marks left open -/

/-- The marks that a text, read by itself, leaves open: outside its pieces of markup, those with no
other mark of their kind behind them. -/
def leftOpen (t : Text) : List Char :=
  match h : piece? t with
  | some (_, rest) =>
    have := length_of_piece? h
    leftOpen rest
  | none =>
    match t with
    | [] => []
    | c :: t => if IsMark c ∧ c ∉ t then c :: leftOpen t else leftOpen t
termination_by t.length
decreasing_by
  all_goals simp_all

section

variable {c : Char} {t rest l u : Text} {p : Piece}

theorem leftOpen_of_some (h : piece? t = some (p, rest)) : leftOpen t = leftOpen rest := by
  rw [leftOpen]
  split
  · rename_i p' rest' h'
    obtain ⟨-, rfl⟩ : p = p' ∧ rest = rest' := by simpa [h] using h'
    rfl
  · rename_i h'
    simp [h] at h'

theorem leftOpen_of_none (h : piece? (c :: t) = none) : leftOpen (c :: t) =
    if IsMark c ∧ c ∉ t then c :: leftOpen t else leftOpen t := by
  conv_lhs => rw [leftOpen]
  split
  · rename_i h'
    simp [h] at h'
  · rfl

@[simp] theorem leftOpen_nil : leftOpen [] = [] := by
  rw [leftOpen]
  split
  · rename_i h
    simp [piece?] at h
  · rfl

/-- An emphasis at the front: a link stands inside it or behind it. -/
theorem stands_emphasised {place : ℕ} {a : Text} (hc : IsMark c) (hne : a ≠ []) (ha : c ∉ a)
    (offset : ℕ) (plain rest : Text) :
    Stands (labelledLink place l u) (inlineFrom offset plain (c :: (a ++ c :: rest))) ↔
      Stands (labelledLink place l u) (inline (offset + Text.byteLength plain + 1) a) ∨
      Stands (labelledLink place l u)
        (inline (offset + Text.byteLength plain + Text.byteLength a + 2) rest) := by
  have hsize := hc.utf8Size_eq
  have hnext : offset + Text.byteLength plain +
      (Text.byteLength (c :: (a ++ c :: rest)) - Text.byteLength rest) =
      offset + Text.byteLength plain + Text.byteLength a + 2 := by
    simp only [Text.byteLength_cons, Text.byteLength_append, hsize]
    omega
  rw [stands_inlineFrom_of_some (piece?_emphasis hc hne ha rest), stands_emphasis_node, hnext]

/-- A mark in front of a link that pairs with one behind it puts the link into an emphasis. -/
theorem stands_of_mark_behind {place offset : ℕ} {plain p a : Text} (hc : IsMark c) (hp : c ∉ p)
    (hinside : c ∉ l ∧ c ∉ u) (ha : c ∉ a)
    (hplace : place = offset + Text.byteLength plain + Text.byteLength (c :: p) + 1) (b : Text) :
    Stands (labelledLink place l u)
        (inlineFrom offset plain (c :: (p ++ linkText l u (a ++ c :: b)))) ↔
      Stands (labelledLink place l u)
        (inline (offset + Text.byteLength plain + 1) (p ++ linkText l u a)) := by
  have hsize := hc.utf8Size_eq
  have hdelimiters := hc.ne_delimiter
  have htext : p ++ linkText l u (a ++ c :: b) = (p ++ linkText l u a) ++ c :: b := by
    simp [linkText]
  have hmem : c ∉ p ++ linkText l u a := by
    simp [linkText, hp, ha, hdelimiters, hinside]
  rw [htext, stands_emphasised hc (by simp [linkText]) hmem, or_iff_left]
  refine not_stands_of_le ?_
  simp only [hplace, linkText, Text.byteLength_cons, Text.byteLength_append, Text.byteLength_nil,
    hsize]
  omega

namespace Linkable

variable {place offset : ℕ} {plain : Text} (h : Linkable l u)
include h

theorem stands_front (hplace : place = offset + Text.byteLength plain + 1) (s : Text) :
    Stands (labelledLink place l u) (inlineFrom offset plain (linkText l u s)) := by
  rw [stands_inlineFrom_of_some (h.piece?_linkText s), hplace]
  exact .inl (.here List.mem_cons_self)

/-- A mark in front of a link that pairs with one inside it takes the link apart. -/
theorem not_stands_of_mark_inside {p : Text} (hc : IsMark c) (hbracket : '[' ∉ p)
    (hp : c ∉ p) (hinside : ¬(c ∉ l ∧ c ∉ u))
    (hplace : place = offset + Text.byteLength plain + Text.byteLength (c :: p) + 1) (s : Text) :
    ¬Stands (labelledLink place l u) (inlineFrom offset plain (c :: (p ++ linkText l u s))) := by
  have hsize := hc.utf8Size_eq
  have hopening := hc.ne_delimiter.1
  have hmem : c ∈ l ++ '|' :: u := by
    by_contra hmem
    exact hinside (by simp_all)
  obtain ⟨a, b, hcut, ha⟩ := List.eq_append_cons_of_mem hmem
  have htext : p ++ linkText l u s = (p ++ '[' :: a) ++ c :: (b ++ ']' :: s) := by
    have : l ++ '|' :: (u ++ ']' :: s) = a ++ c :: (b ++ ']' :: s) := by
      simpa using congrArg (· ++ ']' :: s) hcut
    simp [linkText, this]
  have hclosing : ']' ∉ a := by
    have : ']' ∉ l ++ '|' :: u := by simp [h.label_plain.1, h.url_plain]
    rw [hcut] at this
    exact fun hmem => this (List.mem_append_left _ hmem)
  rw [htext, stands_emphasised hc (by simp) (by simp [hp, ha, hopening])]
  rintro (hstands | hstands)
  · exact not_stands_of_unclosed hbracket hclosing hstands
  · refine not_stands_of_le ?_ hstands
    have hone : ('[' : Char).utf8Size = 1 := rfl
    simp only [hplace, Text.byteLength_cons, Text.byteLength_append, Text.byteLength_nil, hsize,
      hone]
    omega

end Linkable

/-- A link is recognised behind plain characters that have been passed on and a text in which no
mark that is left open pairs with one inside the link. -/
theorem stands_inlineFrom_iff (h : Linkable l u) {p : Text} (hp : '[' ∉ p) {place offset : ℕ}
    {plain : Text} (hplace : place = offset + Text.byteLength plain + Text.byteLength p + 1)
    (s : Text) :
    Stands (labelledLink place l u) (inlineFrom offset plain (p ++ linkText l u s)) ↔
      ∀ c ∈ leftOpen p, c ∉ l ∧ c ∉ u := by
  induction p using reading_induction generalizing offset plain s with
  | @piece p rest q hq _ ihrest =>
    obtain ⟨c, a, hc, hne, ha, rfl, rfl⟩ := exists_of_piece?_of_not_mem hq hp
    simp only [List.mem_cons, List.mem_append, not_or] at hp
    have hfront : ¬Stands (labelledLink place l u)
        (inline (offset + Text.byteLength plain + 1) a) := not_stands_of_not_mem hp.2.1
    have hbehind : place = offset + Text.byteLength plain + Text.byteLength a + 2 +
        Text.byteLength [] + Text.byteLength rest + 1 := by
      simp only [hplace, Text.byteLength_cons, Text.byteLength_append, Text.byteLength_nil,
        hc.utf8Size_eq]
      omega
    rw [leftOpen_of_some hq, List.cons_append, List.append_assoc, List.cons_append,
      stands_emphasised hc hne ha, or_iff_right hfront]
    exact ihrest hp.2.2.2 hbehind s
  | @pass c p hnone ih =>
    simp only [List.mem_cons, not_or] at hp
    have hpassed (hnone : piece? (c :: (p ++ linkText l u s)) = none) :
        Stands (labelledLink place l u) (inlineFrom offset plain (c :: (p ++ linkText l u s))) ↔
          ∀ c ∈ leftOpen p, c ∉ l ∧ c ∉ u := by
      rw [inlineFrom_of_none offset plain hnone]
      refine ih hp.2 ?_ s
      simp only [hplace, Text.byteLength_cons]
      omega
    rw [List.cons_append, leftOpen_of_none hnone]
    by_cases hopen : IsMark c ∧ c ∉ p
    · rw [if_pos hopen, List.forall_mem_cons]
      obtain ⟨hc, hmem⟩ := hopen
      -- The mark pairs with one inside the link, or with one behind it, or stays alone.
      by_cases hinside : c ∉ l ∧ c ∉ u
      · rw [and_iff_right hinside]
        by_cases hbehind : c ∈ s
        · obtain ⟨a, b, rfl, ha⟩ := List.eq_append_cons_of_mem hbehind
          rw [stands_of_mark_behind hc hmem hinside ha hplace]
          refine ih hp.2 ?_ a
          simp only [hplace, Text.byteLength_cons, Text.byteLength_nil, hc.utf8Size_eq]
          omega
        · refine hpassed (piece?_unclosed hc ?_)
          simp [linkText, hbehind, hmem, hinside, hc.ne_delimiter]
      · exact iff_of_false (h.not_stands_of_mark_inside hc hp.2 hmem hinside hplace s)
          fun hall => hinside hall.1
    · rw [if_neg hopen]
      exact hpassed (piece?_append hnone (Ne.symm hp.1) hopen _)
  | nil =>
    rw [Text.byteLength_nil, Nat.add_zero] at hplace
    simpa using h.stands_front hplace s

/-- A labelled link is recognised, by itself or inside emphasis, exactly when no mark that the text
in front of it leaves open occurs in its label or its url. -/
theorem stands_labelled_iff (offset : ℕ) {p l u : Text} (s : Text) (hp : '[' ∉ p) (hl : l ≠ [])
    (hlabel : ']' ∉ l ∧ '|' ∉ l) (hu : u ≠ []) (hurl : ']' ∉ u) :
    Stands (.container (.link (Text.trim u)) [.text (offset + Text.byteLength p + 1) l])
        (inline offset (p ++ '[' :: (l ++ '|' :: (u ++ ']' :: s)))) ↔
      ∀ c ∈ leftOpen p, c ∉ l ∧ c ∉ u := by
  have hplace : offset + Text.byteLength p + 1 =
      offset + Text.byteLength [] + Text.byteLength p + 1 := rfl
  exact stands_inlineFrom_iff ⟨hl, hlabel, hu, hurl⟩ hp hplace s

theorem stands_labelled_of_closed_marks :
    Stands (.container (.link "a*b".toList) [.text 13 "the docs".toList])
      (inline 0 "*Note* _see [the docs| a*b ] now_".toList) := by
  have hopen : leftOpen "*Note* _see ".toList = ['_'] := by cbv
  have hmarks : ∀ c ∈ leftOpen "*Note* _see ".toList,
      c ∉ "the docs".toList ∧ c ∉ " a*b ".toList := by
    rw [hopen]
    simp
  exact (@stands_labelled_iff 0 "*Note* _see ".toList "the docs".toList " a*b ".toList
    " now_".toList (by decide) (by decide) (by decide) (by decide) (by decide)).mpr hmarks

/-- An underscore in front of a link pairs with the one in its url. -/
theorem labelled_link_cut_by_open_mark :
    ¬∀ p l u s : Text, '[' ∉ p → l ≠ [] → ']' ∉ l → '|' ∉ l → u ≠ [] → ']' ∉ u →
      ∃ place, Stands (.container (.link (Text.trim u)) [.text place l])
        (inline 0 (p ++ '[' :: (l ++ '|' :: (u ++ ']' :: s)))) := by
  intro h
  have hnodes : inline 0 "_see [the docs|a_b]".toList =
      [.container .emphasis [.text 1 "see [the docs|a".toList], .text 17 "b]".toList] := by cbv
  obtain ⟨place, hstands⟩ := h "_see ".toList "the docs".toList "a_b".toList [] (by decide)
    (by decide) (by decide) (by decide) (by decide) (by decide)
  change Stands _ (inline 0 "_see [the docs|a_b]".toList) at hstands
  rw [hnodes, stands_cons, stands_emphasis (by simp)] at hstands
  rcases hstands with hstands | hstands <;> exact not_stands_leaf (by simp) _ hstands

end

end ProseLint.Markup.Wiki
