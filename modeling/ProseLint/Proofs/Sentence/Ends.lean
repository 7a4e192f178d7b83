import ProseLint.Proofs.Sentence.Cut
import ProseLint.Proofs.Text.Position

/-!
# Texts that end where a sentence does

A text is ended when its first sentence end is its very end. A segment is ended, and stays so when
blanks are dropped in front, when text without a sentence end is put before it, or when closers
follow. Where a text is cut depends on no more than the character behind the cut.
-/
namespace ProseLint.Terminators

variable {T : Terminators}

/-- The first sentence end of the text is its very end. -/
def Ends (T : Terminators) (t : Text) : Prop := T.cut t = some (t, [])

theorem firstEnd_eq_none_iff {t : Text} : T.firstEnd t = none ↔ T.cut t = none := by
  simp [firstEnd]

theorem firstEnd_eq_byteLength_iff {t : Text} :
    T.firstEnd t = some (Text.byteLength t) ↔ T.Ends t := by
  constructor
  · intro h
    obtain ⟨⟨a, b⟩, hcut, hlength⟩ := Option.map_eq_some_iff.mp h
    obtain rfl := append_of_cut hcut
    rw [Text.byteLength_append] at hlength
    obtain rfl : b = [] := by
      by_contra hb
      have hpos := Text.byteLength_pos hb
      dsimp only at hlength
      omega
    rwa [List.append_nil] at hcut ⊢
  · intro h
    rw [firstEnd, h]
    rfl

/-- The part of a text in front of some text that it ends with is cut where the text is. -/
theorem cutFrom_of_append {s : Search} {t a b v : Text}
    (h : T.cutFrom s (t ++ v) = some (a, b ++ v)) : T.cutFrom s t = some (a, b) := by
  induction t generalizing s a with
  | nil =>
    have hlength := congrArg List.length (append_of_cutFrom h)
    simp only [List.nil_append, List.length_append] at hlength
    obtain rfl : a = [] := List.length_eq_zero_iff.mp (by omega)
    obtain rfl : b = [] := List.length_eq_zero_iff.mp (by omega)
    cases s with
    | outside => exact absurd rfl (cut_ne_nil h)
    | inRun wide => rfl
    | inClosers wide => rfl
  | cons c t ih =>
    rw [List.cons_append] at h
    rcases cutFrom_cons_eq_some_iff.mp h with ⟨hs, rfl, hb⟩ | ⟨s', a', hs, h', rfl⟩
    · rw [← List.cons_append, List.append_cancel_right_eq] at hb
      exact cutFrom_cons_eq_some_iff.mpr (.inl ⟨hs, rfl, hb⟩)
    · exact cutFrom_cons_eq_some_iff.mpr (.inr ⟨s', a', hs, ih h', rfl⟩)

theorem cut_of_append {t a b v : Text} (h : T.cut (t ++ v) = some (a, b ++ v)) :
    T.cut t = some (a, b) := cutFrom_of_append h

theorem ends_of_cut {t a b : Text} (h : T.cut t = some (a, b)) : T.Ends a := by
  rw [← append_of_cut h] at h
  exact cut_of_append (b := []) h

theorem ends_of_mem_segments {t a : Text} (ha : a ∈ (T.segments t).1) : T.Ends a := by
  induction t using segments.induct (T := T) with
  | case1 t hcut =>
    rw [segments_of_cut_none hcut] at ha
    simp at ha
  | case2 t b c hcut _ ih =>
    rw [segments_of_cut_some hcut] at ha
    rcases List.mem_cons.mp ha with rfl | ha
    · exact ends_of_cut hcut
    · exact ih ha

namespace Ends

variable {t u : Text}

theorem ne_nil (h : T.Ends t) : t ≠ [] := cut_ne_nil h

theorem segments_eq (h : T.Ends t) : T.segments t = ([t], []) := by
  rw [segments_of_cut_some h, segments_of_cut_none rfl]

theorem endsInInk (hT : T.Inked) (h : T.Ends t) : Text.EndsInInk t := endsInInk_of_cut hT h

/-- Text in front in which no sentence ends does not matter. -/
theorem append_left (h : T.Ends t) (hu : T.cut u = none) : T.Ends (u ++ t) := by
  rw [Ends, cut_append hu, h]
  rfl

theorem of_append (h : T.Ends (u ++ t)) (hu : T.cut u = none) : T.Ends t := by
  rw [Ends, cut_append hu, Option.map_eq_some_iff] at h
  obtain ⟨⟨a, b⟩, hcut, heq⟩ := h
  rw [Prod.mk.injEq, List.append_cancel_left_eq] at heq
  obtain ⟨rfl, rfl⟩ := heq
  exact hcut

end Ends

theorem Ends.trimStart (hT : T.Inked) {t : Text} (h : T.Ends t) : T.Ends (Text.trimStart t) := by
  obtain ⟨w, ht, hw⟩ := Text.exists_append_trimStart t
  rw [ht] at h
  exact h.of_append (cut_eq_none_of_blank hT hw)

theorem cut_trimEnd_eq_none (hT : T.Inked) {t : Text} (h : T.cut t = none) :
    T.cut (Text.trimEnd t) = none := by
  obtain ⟨w, ht, hw⟩ := Text.exists_trimEnd_append t
  by_contra hcut
  obtain ⟨⟨a, b⟩, hcut⟩ := Option.ne_none_iff_exists'.mp hcut
  have happ := cutFrom_append_right hT hcut (v := w) fun _ c hc => hw c (List.mem_of_mem_head? hc)
  rw [← ht] at happ
  exact absurd (happ.symm.trans h) (by simp)

/-- Closers never end the search when it is inside of a run or of closers. -/
theorem cutFrom_closers {s : Search} (hs : s ≠ .outside) {k : Text}
    (hk : ∀ c ∈ k, isCloser c = true) : T.cutFrom s k = some (k, []) := by
  induction k generalizing s with
  | nil => cases s <;> simp_all [cutFrom]
  | cons c k ih =>
    have hc : isCloser c = true := hk c (by simp)
    have hrest := fun (s' : Search) hs' => ih (s := s') hs' fun d hd => hk d (by simp [hd])
    cases s with
    | outside => exact absurd rfl hs
    | inRun wide => by_cases hterminator : T.contains c = true <;> simp_all [cutFrom, step]
    | inClosers wide => simp_all [cutFrom, step]

theorem cutFrom_append_closers {s : Search} {t k : Text} (h : T.cutFrom s t = some (t, []))
    (hk : ∀ c ∈ k, isCloser c = true) : T.cutFrom s (t ++ k) = some (t ++ k, []) := by
  induction t generalizing s with
  | nil =>
    refine cutFrom_closers ?_ hk
    rintro rfl
    simp [cutFrom] at h
  | cons c t ih =>
    rcases cutFrom_cons_eq_some_iff.mp h with ⟨-, hnil, -⟩ | ⟨s', a', hs, h', hcons⟩
    · simp at hnil
    · obtain ⟨-, rfl⟩ := List.cons.inj hcons
      exact cutFrom_cons_eq_some_iff.mpr (.inr ⟨s', t ++ k, hs, ih h', rfl⟩)

theorem Ends.append_closers {t k : Text} (h : T.Ends t) (hk : ∀ c ∈ k, isCloser c = true) :
    T.Ends (t ++ k) := cutFrom_append_closers h hk

/-- A closer stays with the text that is cut off. -/
theorem isCloser_of_cutFrom {s : Search} {t a b : Text} {c : Char}
    (h : T.cutFrom s t = some (a, c :: b)) : isCloser c = false := by
  induction t generalizing s a with
  | nil => cases s <;> simp [cutFrom] at h
  | cons d t ih =>
    rcases cutFrom_cons_eq_some_iff.mp h with ⟨hs, -, hcons⟩ | ⟨s', a', -, h', -⟩
    · obtain ⟨rfl, -⟩ := List.cons.inj hcons
      cases s <;> simp only [step] at hs <;> grind
    · exact ih h'

/-- A terminator puts the search into a run or, if it is a closer, leaves it behind one. -/
theorem step_ne_outside {s : Search} {c : Char} (hc : T.contains c = true) :
    T.step s c ≠ some .outside := by
  cases s <;> simp only [step, hc] <;> grind

theorem EndsRun.cut_ne_none {t : Text} (h : T.EndsRun t) : T.cut t ≠ none := by
  obtain ⟨before, c, closers, rfl, hc, hclosers⟩ := h
  rw [cut]
  generalize Search.outside = s
  induction before generalizing s with
  | nil =>
    rw [List.nil_append, cutFrom]
    cases hs : T.step s c with
    | none => simp
    | some s' =>
      have hinside : s' ≠ .outside := by
        rintro rfl
        exact step_ne_outside hc hs
      simp [cutFrom_closers hinside hclosers]
  | cons d before ih =>
    rw [List.cons_append, cutFrom]
    cases T.step s d with
    | none => simp
    | some s' => simpa using ih s'

/-- Behind a cut there is the run that the text ends in, or nothing. -/
theorem EndsRun.of_cut {t a b : Text} (h : T.EndsRun t) (hcut : T.cut t = some (a, b))
    (hb : b ≠ []) : T.EndsRun b := by
  obtain ⟨before, c, closers, ht, hc, hclosers⟩ := h
  have happ := (append_of_cut hcut).trans ht
  obtain ⟨d, b, rfl⟩ := List.exists_cons_of_ne_nil hb
  rw [List.append_eq_append_iff] at happ
  rcases happ with ⟨rest, -, hrest⟩ | ⟨rest, -, hrest⟩
  · exact ⟨rest, c, closers, hrest, hc, hclosers⟩
  · cases rest with
    | nil => exact ⟨[], c, closers, hrest.symm, hc, hclosers⟩
    | cons e rest =>
      -- the cut would be among the closers
      obtain ⟨-, hrest⟩ := List.cons.inj hrest
      have hd : isCloser d = true := hclosers d (by simp [hrest])
      exact absurd hd (by simp [isCloser_of_cutFrom hcut])

theorem EndsRun.segments_eq {t : Text} (h : T.EndsRun t) : (T.segments t).2 = [] := by
  induction t using segments.induct (T := T) with
  | case1 t hcut => exact absurd hcut h.cut_ne_none
  | case2 t a b hcut _ ih =>
    rw [segments_of_cut_some hcut]
    by_cases hb : b = []
    · rw [hb, segments_of_cut_none rfl]
    · exact ih (h.of_cut hcut hb)

/-- Closers behind a run go to the last segment. -/
theorem EndsRun.segments_append_closers (hT : T.Inked) {t k : Text} (h : T.EndsRun t)
    (hk : ∀ c ∈ k, isCloser c = true) : ∃ front a, T.segments t = (front ++ [a], []) ∧
      T.segments (t ++ k) = (front ++ [a ++ k], []) := by
  induction t using segments.induct (T := T) with
  | case1 t hcut => exact absurd hcut h.cut_ne_none
  | case2 t a b hcut _ ih =>
    by_cases hb : b = []
    · subst hb
      obtain rfl : a = t := by simpa using append_of_cut hcut
      have hends : T.Ends a := hcut
      exact ⟨[], a, hends.segments_eq, (hends.append_closers hk).segments_eq⟩
    · obtain ⟨front, e, hsegments, happend⟩ := ih (h.of_cut hcut hb)
      have hlonger := cutFrom_append_right hT hcut (v := k) fun hnil => absurd hnil hb
      exact ⟨a :: front, e, by rw [segments_of_cut_some hcut, hsegments]; rfl,
        by rw [segments_of_cut_some hlonger, happend]; rfl⟩

/-- A sentence of the text `t ++ v` ends where `t` does. -/
def EndsBehind (T : Terminators) (t v : Text) : Prop :=
  ∃ front back, (T.segments (t ++ v)).1 = front ++ back ∧ front.flatten = t

theorem cut_of_segments_cons {a t : Text} {rest : List Text}
    (h : (T.segments (a ++ t)).1 = a :: rest) :
    T.cut (a ++ t) = some (a, t) ∧ (T.segments t).1 = rest := by
  cases hcut : T.cut (a ++ t) with
  | none =>
    rw [segments_of_cut_none hcut] at h
    simp at h
  | some p =>
    obtain ⟨b, u⟩ := p
    have happ := append_of_cut hcut
    rw [segments_of_cut_some hcut, List.cons.injEq] at h
    obtain ⟨rfl, hrest⟩ := h
    obtain rfl := List.append_cancel_left happ
    exact ⟨rfl, hrest⟩

theorem segments_append_of_ends {front back : List Text} {v : Text}
    (h : (T.segments (front.flatten ++ v)).1 = front ++ back) :
    T.segments (front.flatten ++ v) =
      ((T.segments front.flatten).1 ++ (T.segments v).1, (T.segments v).2) := by
  induction front with
  | nil => simp [segments_of_cut_none (T := T) (t := []) rfl]
  | cons a front ih =>
    rw [List.flatten_cons, List.append_assoc] at h ⊢
    obtain ⟨hcut, hrest⟩ := cut_of_segments_cons h
    have hfront : T.cut (a ++ front.flatten) = some (a, front.flatten) :=
      cut_of_append (by rwa [List.append_assoc])
    rw [segments_of_cut_some hcut, segments_of_cut_some hfront, ih hrest]
    rfl

/-- Where a sentence ends, the text falls into two that do not know of each other. -/
theorem EndsBehind.segments_eq {t v : Text} (h : T.EndsBehind t v) :
    T.segments (t ++ v) = ((T.segments t).1 ++ (T.segments v).1, (T.segments v).2) := by
  obtain ⟨front, back, hsegments, rfl⟩ := h
  exact segments_append_of_ends hsegments

/-- The last of the segments that end there is cut off there. -/
theorem EndsBehind.exists_cut {t v : Text} (h : T.EndsBehind t v) (ht : t ≠ []) :
    ∃ before a, t = before ++ a ∧ T.cut (a ++ v) = some (a, v) := by
  obtain ⟨front, back, hsegments, rfl⟩ := h
  induction front with
  | nil => exact absurd rfl ht
  | cons a front ih =>
    rw [List.flatten_cons, List.append_assoc] at hsegments
    obtain ⟨hcut, hrest⟩ := cut_of_segments_cons hsegments
    by_cases hnil : front.flatten = []
    · rw [hnil] at hcut
      exact ⟨[], a, by simp [hnil], hcut⟩
    · obtain ⟨before, b, hflatten, hlast⟩ := ih hnil hrest
      exact ⟨a ++ before, b, by simp [hflatten], hlast⟩

/-- No sentence ends between two terminators, unless the first is a closer. -/
theorem cutFrom_run_ne {s : Search} {t v : Text} {c d : Char} (hc : T.contains c = true)
    (hd : T.contains d = true) (hcloser : isCloser c = false) :
    T.cutFrom s (t ++ c :: d :: v) ≠ some (t ++ [c], d :: v) := by
  induction t generalizing s with
  | nil =>
    intro h
    have hin : ∀ s', T.step s c = some s' → ∃ wide, s' = .inRun wide := by
      intro s' hs
      cases s <;> simp only [step, hc, hcloser] at hs <;> grind
    rcases cutFrom_cons_eq_some_iff.mp h with ⟨-, hnil, -⟩ | ⟨s', a, hs, h', ha⟩
    · simp at hnil
    · obtain ⟨wide, rfl⟩ := hin s' hs
      obtain rfl : a = [] := by simpa using ha.symm
      simp [cutFrom, step, hd] at h'
  | cons e t ih =>
    intro h
    rcases cutFrom_cons_eq_some_iff.mp h with ⟨-, hnil, -⟩ | ⟨s', a, -, h', hcons⟩
    · simp at hnil
    · obtain ⟨-, rfl⟩ := List.cons.inj hcons
      exact ih h'

theorem not_endsBehind_of_run {t v : Text} {c d : Char} (hc : T.contains c = true)
    (hd : T.contains d = true) (hcloser : isCloser c = false) :
    ¬T.EndsBehind (t ++ [c]) (d :: v) := by
  intro h
  obtain ⟨before, a, ht, hcut⟩ := h.exists_cut (by simp)
  obtain rfl | ⟨a, e, rfl⟩ := List.eq_nil_or_concat' a
  · exact cut_ne_nil hcut rfl
  · rw [← List.append_assoc] at ht
    obtain ⟨-, he⟩ := List.append_inj' ht rfl
    obtain rfl := List.singleton_inj.mp he
    rw [List.append_assoc] at hcut
    exact cutFrom_run_ne hc hd hcloser hcut

end ProseLint.Terminators
