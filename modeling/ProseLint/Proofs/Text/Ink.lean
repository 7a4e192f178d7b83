import Mathlib.Data.List.DropRight
import Mathlib.Tactic
import ProseLint.Text

/-!
# Ink

What a text says apart from its blanks. Trimming takes blanks from the ends of a text and no ink.
In a marked text each character carries a mark, such as the line or the source position it has
come from; its ink keeps the marks.
-/
namespace ProseLint
namespace Text

/-- The characters of a text that are not blank. -/
def ink (t : Text) : Text := t.filter fun c => !isBlank c

@[simp] theorem ink_nil : ink [] = [] := rfl

@[simp] theorem ink_append (s t : Text) : ink (s ++ t) = ink s ++ ink t := by simp [ink]

theorem ink_eq_nil {t : Text} : ink t = [] ↔ ∀ c ∈ t, isBlank c = true := by simp [ink]

/-- The text ends with a character that is not blank, or is empty. -/
def EndsInInk (t : Text) : Prop := ∀ c ∈ t.getLast?, isBlank c = false

theorem EndsInInk.append {s t : Text} (hs : EndsInInk s) (ht : EndsInInk t) :
    EndsInInk (s ++ t) := by
  intro c hc
  rw [List.getLast?_append, Option.mem_def, Option.or_eq_some_iff] at hc
  rcases hc with hc | ⟨_, hc⟩
  · exact ht c hc
  · exact hs c hc

theorem endsInInk_append_right {s t : Text} (ht : t ≠ []) : EndsInInk (s ++ t) ↔ EndsInInk t := by
  obtain ⟨c, hc⟩ := Option.isSome_iff_exists.mp (List.getLast?_isSome.mpr ht)
  simp [EndsInInk, List.getLast?_append, hc]

theorem EndsInInk.ink_ne_nil {t : Text} (h : EndsInInk t) (ht : t ≠ []) : ink t ≠ [] := by
  intro hi
  have hl := h _ (List.getLast?_eq_some_getLast ht)
  have hb := ink_eq_nil.mp hi _ (List.getLast_mem ht)
  simp [hl] at hb

/-- Where a text is cut behind ink, the ink in front of the cut tells where. -/
theorem append_inj_of_ink {a b c d : Text} (h : a ++ b = c ++ d) (hink : ink a = ink c)
    (ha : EndsInInk a) (hc : EndsInInk c) : a = c := by
  have hnil : ∀ t e : Text, EndsInInk (t ++ e) → ink t = ink (t ++ e) → e = [] := by
    intro t e hends heq
    by_contra hne
    have he : ink e = [] := by simpa using heq
    exact ((endsInInk_append_right hne).mp hends).ink_ne_nil hne he
  rcases List.append_eq_append_iff.mp h with ⟨e, rfl, -⟩ | ⟨e, rfl, -⟩
  · rw [hnil a e hc hink, List.append_nil]
  · rw [hnil c e ha hink.symm, List.append_nil]

theorem exists_append_trimStart (t : Text) :
    ∃ w, t = w ++ trimStart t ∧ ∀ c ∈ w, isBlank c = true :=
  ⟨t.takeWhile isBlank, List.takeWhile_append_dropWhile.symm, fun _ => List.mem_takeWhile_imp⟩

theorem trimStart_append (s t : Text) :
    trimStart (s ++ t) = if trimStart s = [] then trimStart t else trimStart s ++ t := by
  rw [trimStart, List.dropWhile_append]
  simp [trimStart]

theorem isBlank_of_head?_trimStart {t : Text} {c : Char} (h : (trimStart t).head? = some c) :
    isBlank c = false := by
  have hd := List.head?_dropWhile_not isBlank t
  rw [trimStart] at h
  simpa only [h] using hd

theorem trimStart_of_head? {t : Text} {c : Char} (h : t.head? = some c) (hc : isBlank c = false) :
    trimStart t = t := by
  obtain ⟨t, rfl⟩ := List.head?_eq_some_iff.mp h
  rw [trimStart, List.dropWhile_cons_of_neg (by simp [hc])]

theorem trimEnd_eq_rdropWhile (t : Text) : trimEnd t = t.rdropWhile isBlank := rfl

theorem exists_trimEnd_append (t : Text) :
    ∃ w, t = trimEnd t ++ w ∧ ∀ c ∈ w, isBlank c = true :=
  ⟨t.rtakeWhile isBlank, (List.rdropWhile_append_rtakeWhile (p := isBlank) (l := t)).symm,
    fun _ => List.mem_rtakeWhile_imp⟩

theorem endsInInk_trimEnd (t : Text) : EndsInInk (trimEnd t) := by
  intro c hc
  have hne : trimEnd t ≠ [] := by
    intro h
    simp [h] at hc
  rw [List.getLast?_eq_some_getLast hne, Option.mem_some_iff] at hc
  have hlast : ¬ isBlank ((trimEnd t).getLast hne) = true := List.rdropWhile_last_not isBlank t hne
  rw [← hc]
  simpa using hlast

theorem EndsInInk.trimEnd_eq {t : Text} (h : EndsInInk t) : trimEnd t = t := by
  rw [trimEnd_eq_rdropWhile, List.rdropWhile_eq_self_iff]
  intro hne
  simp [h _ (List.getLast?_eq_some_getLast hne)]

@[simp] theorem ink_trimEnd (t : Text) : ink (trimEnd t) = ink t := by
  obtain ⟨w, ht, hw⟩ := exists_trimEnd_append t
  conv_rhs => rw [ht, ink_append, ink_eq_nil.mpr hw, List.append_nil]

@[simp] theorem ink_trimStart (t : Text) : ink (trimStart t) = ink t := by
  obtain ⟨w, ht, hw⟩ := exists_append_trimStart t
  conv_rhs => rw [ht, ink_append, ink_eq_nil.mpr hw, List.nil_append]

theorem trim_eq_nil_iff (t : Text) : trim t = [] ↔ ink t = [] := by
  constructor
  · intro h
    rw [← ink_trimStart, ← ink_trimEnd, ← trim, h, ink_nil]
  · intro h
    by_contra hne
    exact (endsInInk_trimEnd (trimStart t)).ink_ne_nil hne (by simpa using h)

/-- A text that begins with ink keeps its first character when it is trimmed at the end. -/
theorem head?_trimEnd {t : Text} {c : Char} (h : t.head? = some c) (hc : isBlank c = false) :
    (trimEnd t).head? = some c := by
  obtain ⟨w, ht, hw⟩ := exists_trimEnd_append t
  cases hu : trimEnd t with
  | nil =>
    rw [hu, List.nil_append] at ht
    rw [ht] at h
    have := hw c (List.mem_of_mem_head? h)
    simp [hc] at this
  | cons d u =>
    rw [hu] at ht
    rw [ht] at h
    simpa using h

end Text

/-- A text of which each character carries a mark. -/
abbrev Marked (α : Type*) := List (Char × α)

namespace Marked

variable {α β : Type*}

/-- The text without its marks. -/
def text (m : Marked α) : Text := m.map Prod.fst

/-- The characters that are not blank, with their marks. -/
def ink (m : Marked α) : Marked α := m.filter fun x => !isBlank x.1

/-- Only blanks, possibly none. -/
def Blank (m : Marked α) : Prop := ∀ x ∈ m, isBlank x.1 = true

@[simp] theorem text_nil : text ([] : Marked α) = [] := rfl

@[simp] theorem text_cons (x : Char × α) (m : Marked α) : text (x :: m) = x.1 :: text m := rfl

@[simp] theorem text_append (m n : Marked α) : text (m ++ n) = text m ++ text n := by simp [text]

@[simp] theorem length_text (m : Marked α) : (text m).length = m.length := by simp [text]

@[simp] theorem text_eq_nil {m : Marked α} : text m = [] ↔ m = [] := by simp [text]

@[simp] theorem ink_nil : ink ([] : Marked α) = [] := rfl

@[simp] theorem ink_append (m n : Marked α) : ink (m ++ n) = ink m ++ ink n := by simp [ink]

@[simp] theorem text_ink (m : Marked α) : text (ink m) = Text.ink (text m) := by
  simp [text, ink, Text.ink, List.filter_map, Function.comp_def]

theorem ink_eq_nil {m : Marked α} : ink m = [] ↔ Blank m := by simp [ink, Blank]

@[simp] theorem blank_nil : Blank ([] : Marked α) := by simp [Blank]

theorem Blank.append {m n : Marked α} (hm : Blank m) (hn : Blank n) : Blank (m ++ n) := by
  rw [← ink_eq_nil] at *
  simp [hm, hn]

theorem blank_iff_text {m : Marked α} : Blank m ↔ ∀ c ∈ text m, isBlank c = true := by
  simp [Blank, text]

theorem Blank.ink_text {m : Marked α} (h : Blank m) : Text.ink (text m) = [] :=
  Text.ink_eq_nil.mpr (blank_iff_text.mp h)

/-- A text with one mark at all its characters. -/
def const (a : α) (t : Text) : Marked α := t.map fun c => (c, a)

@[simp] theorem text_const (a : α) (t : Text) : text (const a t) = t := by
  simp [text, const, Function.comp_def]

@[simp] theorem const_nil (a : α) : const a [] = [] := rfl

@[simp] theorem const_append (a : α) (s t : Text) : const a (s ++ t) = const a s ++ const a t := by
  simp [const]

theorem mark_eq_of_mem_const {a : α} {t : Text} {x : Char × α} (h : x ∈ const a t) : x.2 = a := by
  obtain ⟨c, -, rfl⟩ := List.mem_map.mp h
  rfl

/-- A text with one of its characters marked. -/
def spot (front : Text) (c : Char) (back : Text) : Marked Bool :=
  const false front ++ (c, true) :: const false back

/-- The same text with other marks. -/
def mapMarks (f : α → β) (m : Marked α) : Marked β := m.map fun x => (x.1, f x.2)

@[simp] theorem text_mapMarks (f : α → β) (m : Marked α) : text (mapMarks f m) = text m := by
  simp [text, mapMarks, Function.comp_def]

@[simp] theorem ink_mapMarks (f : α → β) (m : Marked α) :
    ink (mapMarks f m) = mapMarks f (ink m) := by
  simp [ink, mapMarks, List.filter_map, Function.comp_def]

/-- A marked text is cut where its text is. -/
theorem exists_append_of_text {m : Marked α} {s t : Text} (h : text m = s ++ t) :
    ∃ m₁ m₂, m = m₁ ++ m₂ ∧ text m₁ = s ∧ text m₂ = t := List.map_eq_append_iff.mp h

/-- Trimming at the start cuts a marked text in front of its first ink. -/
theorem exists_trimStart {m : Marked α} (h : Text.trimStart (text m) ≠ []) :
    ∃ gap x rest, m = gap ++ x :: rest ∧ Blank gap ∧ isBlank x.1 = false ∧
      Text.trimStart (text m) = text (x :: rest) := by
  obtain ⟨w, hw, hblank⟩ := Text.exists_append_trimStart (text m)
  obtain ⟨gap, body, hm, rfl, hbody⟩ := exists_append_of_text hw
  cases body with
  | nil => exact absurd hbody.symm h
  | cons x rest =>
    refine ⟨gap, x, rest, hm, blank_iff_text.mpr hblank, ?_, hbody.symm⟩
    apply Text.isBlank_of_head?_trimStart (t := text m)
    rw [← hbody]
    rfl

end Marked

end ProseLint
