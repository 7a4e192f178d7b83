import ProseLint.Proofs.Text.Ink
import ProseLint.Sentence.Terminators

/-!
# Where a text is cut

Facts about the search for a sentence end. A text without one leaves no trace in the search, so a
longer text is cut as if it began behind it. When no terminator is a blank, a segment ends in ink:
in a terminator or in a closer.
-/
namespace ProseLint

theorem isBlank_of_isCloser {c : Char} (h : isCloser c = true) : isBlank c = false := by
  simp only [isCloser, Bool.or_eq_true, beq_iff_eq] at h
  rcases h with (((((((rfl | rfl) | rfl) | rfl) | rfl) | rfl) | rfl) | rfl) | rfl <;> rfl

namespace Terminators

/-- No terminator is a blank. -/
def Inked (T : Terminators) : Prop := ∀ c, T.contains c = true → isBlank c = false

/-- Whether no terminator is a blank can be told by looking at each of them. -/
theorem inked_iff {T : Terminators} :
    T.Inked ↔ (T.chars.all fun c => !isBlank c) = true := by
  simp [Inked, contains]

theorem inked_fullStop : fullStop.Inked := inked_iff.mpr (by decide)

variable {T : Terminators}

/-- A text is cut in front of its first character, or where the search behind it cuts. -/
theorem cutFrom_cons_eq_some_iff {s : Search} {c : Char} {t a b : Text} :
    T.cutFrom s (c :: t) = some (a, b) ↔ (T.step s c = none ∧ a = [] ∧ b = c :: t) ∨
      ∃ s' a', T.step s c = some s' ∧ T.cutFrom s' t = some (a', b) ∧ a = c :: a' := by
  rw [cutFrom]
  cases hs : T.step s c with
  | none => simp [eq_comm]
  | some s' => simp [eq_comm]

/-- A search that ends outside of every run goes on as if it had just begun. -/
theorem cutFrom_append {s : Search} {u : Text} (h : T.cutFrom s u = none) (v : Text) :
    T.cutFrom s (u ++ v) = (T.cut v).map fun r => (u ++ r.1, r.2) := by
  induction u generalizing s with
  | nil => cases s <;> simp_all [cutFrom, cut]
  | cons c u ih =>
    simp only [cutFrom, List.cons_append] at h ⊢
    cases hs : T.step s c with
    | none => simp [hs] at h
    | some s' =>
      simp only [hs, Option.map_eq_none_iff] at h ⊢
      simp [ih h, Function.comp_def]

theorem cut_append {u : Text} (h : T.cut u = none) (v : Text) :
    T.cut (u ++ v) = (T.cut v).map fun r => (u ++ r.1, r.2) := cutFrom_append h v

theorem cut_append_eq_none {u v : Text} (hu : T.cut u = none) (hv : T.cut v = none) :
    T.cut (u ++ v) = none := by simp [cut_append hu, hv]

theorem cut_eq_none_of_forall {w : Text} (h : ∀ c ∈ w, T.contains c = false) : T.cut w = none := by
  induction w with
  | nil => rfl
  | cons c w ih =>
    have hc : T.step .outside c = some .outside := by simp [step, h c (by simp)]
    have hw : T.cutFrom .outside w = none := ih fun d hd => h d (by simp [hd])
    simp [cut, cutFrom, hc, hw]

theorem cut_eq_none_of_blank (hT : T.Inked) {w : Text} (hw : ∀ c ∈ w, isBlank c = true) :
    T.cut w = none := by
  apply cut_eq_none_of_forall
  intro c hc
  by_contra hne
  have := hT c (by simpa using hne)
  simp [hw c hc] at this

/-- Blanks in front do not matter to a search that takes none of them for a terminator. -/
theorem cut_eq_none_of_append {w t : Text} (hT : T.Inked) (hw : ∀ c ∈ w, isBlank c = true)
    (h : T.cut (w ++ t) = none) : T.cut t = none := by
  rw [cut_append (cut_eq_none_of_blank hT hw)] at h
  simpa using h

/-- A cut is made behind a terminator or a closer, unless the search began inside of a run. -/
theorem last_of_cutFrom {s : Search} {t a b : Text} (h : T.cutFrom s t = some (a, b)) :
    (a = [] ∧ s ≠ .outside) ∨
      ∃ a' c, a = a' ++ [c] ∧ (T.contains c = true ∨ isCloser c = true) := by
  induction t generalizing s a with
  | nil => cases s <;> simp_all [cutFrom]
  | cons c t ih =>
    rcases cutFrom_cons_eq_some_iff.mp h with ⟨hs, rfl, -⟩ | ⟨s', a', hs, h', rfl⟩
    · refine .inl ⟨rfl, ?_⟩
      rintro rfl
      simp [step] at hs
    · right
      rcases ih h' with ⟨rfl, hne⟩ | ⟨a'', d, rfl, hd⟩
      · -- the search is inside of a run, so `c` has put it there
        refine ⟨[], c, rfl, ?_⟩
        by_contra hc
        rw [not_or, Bool.not_eq_true, Bool.not_eq_true] at hc
        apply hne
        cases s <;> simp only [step, hc.1, hc.2] at hs <;> split at hs <;> simp_all
      · exact ⟨c :: a'', d, rfl, hd⟩

theorem endsInInk_of_cut (hT : T.Inked) {t a b : Text} (h : T.cut t = some (a, b)) :
    Text.EndsInInk a := by
  rcases last_of_cutFrom h with ⟨_, hne⟩ | ⟨a', c, rfl, hc⟩
  · exact absurd rfl hne
  · intro d hd
    rw [List.getLast?_append, List.getLast?_singleton, Option.some_or, Option.mem_some_iff] at hd
    subst hd
    exact hc.elim (hT c) isBlank_of_isCloser

theorem segments_of_cut_none {t : Text} (h : T.cut t = none) : T.segments t = ([], t) := by
  rw [segments]
  split
  · rfl
  · rename_i h'
    simp [h] at h'

theorem segments_of_cut_some {t a b : Text} (h : T.cut t = some (a, b)) :
    T.segments t = (a :: (T.segments b).1, (T.segments b).2) := by
  rw [segments]
  split
  · rename_i h'
    simp [h] at h'
  · rename_i h'
    rw [h, Option.some.injEq, Prod.mk.injEq] at h'
    rw [h'.1, h'.2]

/-- The segments of a text lose nothing, none of them is empty, each ends in ink when no terminator
is a blank, and no sentence ends in the remainder. -/
theorem segments_spec (T : Terminators) (t : Text) :
    (T.segments t).1.flatten ++ (T.segments t).2 = t ∧ T.cut (T.segments t).2 = none ∧
      ∀ a ∈ (T.segments t).1, a ≠ [] ∧ (T.Inked → Text.EndsInInk a) := by
  induction t using segments.induct (T := T) with
  | case1 t h =>
    rw [segments_of_cut_none h]
    simp [h]
  | case2 t a b h _ ih =>
    obtain ⟨happ, hnone, hsegs⟩ := ih
    rw [segments_of_cut_some h]
    refine ⟨?_, hnone, ?_⟩
    · rw [List.flatten_cons, List.append_assoc, happ]
      exact append_of_cut h
    · intro d hd
      rcases List.mem_cons.mp hd with rfl | hd
      · exact ⟨cut_ne_nil h, fun hT => endsInInk_of_cut hT h⟩
      · exact hsegs d hd

/-- The text ends in a terminator or in closers behind one. -/
def EndsRun (T : Terminators) (t : Text) : Prop :=
  ∃ before c closers, t = before ++ c :: closers ∧ T.contains c = true ∧
    ∀ d ∈ closers, isCloser d = true

theorem EndsRun.append_left {t : Text} (h : T.EndsRun t) (front : Text) :
    T.EndsRun (front ++ t) := by
  obtain ⟨before, c, closers, rfl, hc, hclosers⟩ := h
  exact ⟨front ++ before, c, closers, by simp, hc, hclosers⟩

theorem not_endsRun_of_blank (hT : T.Inked) (t : Text) {c : Char} (hc : isBlank c = true) :
    ¬T.EndsRun (t ++ [c]) := by
  rintro ⟨before, d, closers, ht, hd, hclosers⟩
  rcases List.eq_nil_or_concat' closers with rfl | ⟨closers, e, rfl⟩
  · obtain ⟨-, hcd⟩ := List.append_inj' ht (by simp)
    obtain rfl : c = d := by simpa using hcd
    simp [hT c hd] at hc
  · rw [← List.cons_append, ← List.append_assoc] at ht
    obtain ⟨-, hce⟩ := List.append_inj' ht (by simp)
    obtain rfl : c = e := by simpa using hce
    simp [isBlank_of_isCloser (hclosers c (by simp))] at hc

/-- What is cut off at the very end of a text ends in a run, but for the closers that a search
already inside of a run goes on with. -/
theorem endsRun_of_cutFrom {s : Search} {t a : Text} (h : T.cutFrom s t = some (a, [])) :
    (s ≠ .outside ∧ ∀ c ∈ t, isCloser c = true) ∨ T.EndsRun t := by
  induction t generalizing s a with
  | nil => cases s <;> simp_all [cutFrom]
  | cons c t ih =>
    rcases cutFrom_cons_eq_some_iff.mp h with ⟨-, -, hnil⟩ | ⟨s', a', hs, h', rfl⟩
    · simp at hnil
    · rcases ih h' with ⟨hne, hclosers⟩ | hends
      · by_cases hc : T.contains c = true
        · exact .inr ⟨[], c, t, rfl, hc, hclosers⟩
        · -- the search stays behind a run, so `c` is a closer
          rw [Bool.not_eq_true] at hc
          have hcloser : s ≠ .outside ∧ isCloser c = true := by
            by_contra hno
            cases s <;> simp_all [step]
          refine .inl ⟨hcloser.1, fun d hd => ?_⟩
          rcases List.mem_cons.mp hd with rfl | hd
          · exact hcloser.2
          · exact hclosers d hd
      · exact .inr (hends.append_left [c])

theorem endsRun_of_segments {t : Text} (h : (T.segments t).2 = []) (ht : t ≠ []) : T.EndsRun t := by
  induction t using segments.induct (T := T) with
  | case1 t hcut =>
    rw [segments_of_cut_none hcut] at h
    exact absurd h ht
  | case2 t a b hcut _ ih =>
    rw [segments_of_cut_some hcut] at h
    by_cases hb : b = []
    · subst hb
      exact (endsRun_of_cutFrom hcut).resolve_left fun hinside => hinside.1 rfl
    · rw [← append_of_cut hcut]
      exact (ih h hb).append_left a

/-- A cut stays where it is when the text goes on, except at the very end of the text: there a blank
must follow. -/
theorem cutFrom_append_right (hT : T.Inked) {s : Search} {t a b v : Text}
    (h : T.cutFrom s t = some (a, b)) (hv : b = [] → ∀ c ∈ v.head?, isBlank c = true) :
    T.cutFrom s (t ++ v) = some (a, b ++ v) := by
  induction t generalizing s a with
  | nil =>
    cases v with
    | nil => cases s <;> simp_all [cutFrom]
    | cons c v =>
      cases s with
      | outside => simp [cutFrom] at h
      | inRun wide =>
        obtain ⟨rfl, rfl⟩ : [] = a ∧ [] = b := by simpa [cutFrom] using h
        have hblank : isBlank c = true := hv rfl c rfl
        have hterminator : T.contains c = false := by
          by_contra hc
          simp [hT c (by simpa using hc)] at hblank
        have hcloser : isCloser c = false := by
          by_contra hc
          simp [isBlank_of_isCloser (by simpa using hc)] at hblank
        simp [cutFrom, step, hterminator, hcloser, hblank]
      | inClosers wide =>
        obtain ⟨rfl, rfl⟩ : [] = a ∧ [] = b := by simpa [cutFrom] using h
        have hblank : isBlank c = true := hv rfl c rfl
        have hcloser : isCloser c = false := by
          by_contra hc
          simp [isBlank_of_isCloser (by simpa using hc)] at hblank
        simp [cutFrom, step, hcloser, hblank]
  | cons c t ih =>
    rcases cutFrom_cons_eq_some_iff.mp h with ⟨hs, rfl, rfl⟩ | ⟨s', a', hs, h', rfl⟩
    · exact cutFrom_cons_eq_some_iff.mpr (.inl ⟨hs, rfl, rfl⟩)
    · exact cutFrom_cons_eq_some_iff.mpr (.inr ⟨s', a', hs, ih h', rfl⟩)

/-- The segments of a text stay when it goes on, unless it ends where a sentence does and no blank
follows; the rest is cut together with what follows. -/
theorem segments_append (hT : T.Inked) {t v : Text}
    (hv : (T.segments t).2 = [] → t ≠ [] → ∀ c ∈ v.head?, isBlank c = true) :
    T.segments (t ++ v) = ((T.segments t).1 ++ (T.segments ((T.segments t).2 ++ v)).1,
      (T.segments ((T.segments t).2 ++ v)).2) := by
  induction t using segments.induct (T := T) with
  | case1 t hcut => simp [segments_of_cut_none hcut]
  | case2 t a b hcut _ ih =>
    have ht : t ≠ [] := by
      rintro rfl
      simp [cut, cutFrom] at hcut
    have hb : b = [] → ∀ c ∈ v.head?, isBlank c = true := by
      rintro rfl
      rw [segments_of_cut_some hcut] at hv
      exact hv (by rw [segments_of_cut_none rfl]) ht
    rw [segments_of_cut_some hcut] at hv ⊢
    rw [segments_of_cut_some (cutFrom_append_right hT hcut hb), ih fun h _ => hv h ht]
    rfl

theorem segments_append_of_cut_none {r v : Text} (hr : T.cut r = none) :
    T.segments (r ++ v) = match T.segments v with
      | ([], rest) => ([], r ++ rest)
      | (a :: segments, rest) => ((r ++ a) :: segments, rest) := by
  have happ := cut_append hr v
  cases hv : T.cut v with
  | none =>
    rw [hv] at happ
    rw [segments_of_cut_none hv, segments_of_cut_none happ]
  | some p =>
    obtain ⟨a, b⟩ := p
    rw [hv] at happ
    rw [segments_of_cut_some hv, segments_of_cut_some happ]

end Terminators
end ProseLint
