import Mathlib.Tactic
import ProseLint.Rule.SentenceRules

/-!
# The words of a text

A word is made of runs of word characters with single connectors between them. The words found in a
text are its maximal factors of this kind: no word reaches over the place where a found one begins
or ends, or over a character that is passed by. So all words of the text lie within found ones, and
a character that no word can hold divides the search into two.
-/
namespace ProseLint.Words

open Unicode (isWordCharacter)

/-- Runs of word characters joined by single connectors. -/
inductive IsWord : Text → Prop
  | single {c : Char} (hc : isWordCharacter c = true) : IsWord [c]
  | extend {c : Char} {w : Text} (hc : isWordCharacter c = true) (hw : IsWord w) : IsWord (c :: w)
  | join {c d : Char} {w : Text} (hc : isWordCharacter c = true) (hd : isConnector d = true)
      (hw : IsWord w) : IsWord (c :: d :: w)

theorem not_isWordCharacter_of_isConnector {c : Char} (h : isConnector c = true) :
    isWordCharacter c = false := by
  simp only [isConnector, Bool.or_eq_true, beq_iff_eq] at h
  obtain (rfl | rfl) | rfl := h <;> decide +kernel

namespace IsWord

variable {u v w : Text} {d : Char}

theorem startsWord_eq (h : IsWord w) : startsWord w = true := by
  cases h with
  | single hc => exact hc
  | extend hc => exact hc
  | join hc => exact hc

theorem ne_nil (h : IsWord w) : w ≠ [] := by
  rintro rfl
  cases h

theorem length_pos (h : IsWord w) : 0 < w.length := List.length_pos_iff.mpr h.ne_nil

theorem exists_concat (h : IsWord w) : ∃ u c, w = u ++ [c] ∧ isWordCharacter c = true := by
  induction h with
  | single hc => exact ⟨[], _, rfl, hc⟩
  | @extend c _ _ _ ih =>
    obtain ⟨u, d, rfl, hd⟩ := ih
    exact ⟨c :: u, d, rfl, hd⟩
  | @join c e _ _ _ _ ih =>
    obtain ⟨u, d, rfl, hd⟩ := ih
    exact ⟨c :: e :: u, d, rfl, hd⟩

/-- Behind a part of a word the word goes on with a word character, or with a connector in front of
one. -/
theorem of_append (h : IsWord (u ++ d :: v)) (hu : u ≠ []) :
    isWordCharacter d = true ∨ isConnector d = true ∧ startsWord v = true := by
  generalize hw : u ++ d :: v = w at h
  induction h generalizing u with
  | single =>
    obtain ⟨c, u, rfl⟩ := List.exists_cons_of_ne_nil hu
    simp at hw
  | @extend c w hc hrest ih =>
    obtain ⟨c, u, rfl⟩ := List.exists_cons_of_ne_nil hu
    obtain ⟨rfl, rfl⟩ : c = _ ∧ u ++ d :: v = w := by simpa using hw
    by_cases hnil : u = []
    · subst hnil
      exact .inl hrest.startsWord_eq
    · exact ih hnil rfl
  | @join c e w hc he hrest ih =>
    obtain ⟨c, u, rfl⟩ := List.exists_cons_of_ne_nil hu
    cases u with
    | nil =>
      obtain ⟨rfl, rfl, rfl⟩ : c = _ ∧ d = e ∧ v = w := by simpa using hw
      exact .inr ⟨he, hrest.startsWord_eq⟩
    | cons e u =>
      obtain ⟨rfl, rfl, rfl⟩ : c = _ ∧ e = _ ∧ u ++ d :: v = w := by simpa using hw
      by_cases hnil : u = []
      · subst hnil
        exact .inl hrest.startsWord_eq
      · exact ih hnil rfl

end IsWord

theorem isWord_takeWord (t : Text) :
    (startsWord t = true → IsWord (takeWord t).1) ∧
      ∀ c, isWordCharacter c = true → IsWord (c :: (takeWord t).1) := by
  induction t with
  | nil => exact ⟨by simp [startsWord], fun c hc => .single hc⟩
  | cons d t ih =>
    have hword : isWordCharacter d = true → IsWord (takeWord (d :: t)).1 := by
      intro hd
      simp only [takeWord, hd, Bool.true_or, if_true]
      exact ih.2 d hd
    refine ⟨hword, fun c hc => ?_⟩
    by_cases hd : isWordCharacter d = true
    · exact .extend hc (hword hd)
    · by_cases hjoin : isConnector d = true ∧ startsWord t = true
      · simp only [takeWord, hjoin.1, hjoin.2, Bool.and_self, Bool.or_true, if_true]
        exact .join hc hjoin.1 (ih.1 hjoin.2)
      · have hstop : (isWordCharacter d || isConnector d && startsWord t) = false := by
          simpa [hd] using hjoin
        simp only [takeWord, hstop, Bool.false_eq_true, if_false]
        exact .single hc

/-- A word is taken as far as it goes: neither a word character follows nor a connector in front of
one. -/
theorem stop_of_takeWord {t v : Text} {d : Char} (h : (takeWord t).2 = d :: v) :
    isWordCharacter d = false ∧ (isConnector d = true → startsWord v = false) := by
  induction t with
  | nil => simp [takeWord] at h
  | cons c t ih =>
    rw [takeWord] at h
    split at h
    · exact ih h
    · rename_i hstop
      obtain ⟨rfl, rfl⟩ : c = d ∧ t = v := by simpa using h
      simpa using hstop

/-- No word of a text reaches over the place between its parts. -/
def Parted (before after : Text) : Prop :=
  ∀ u v, u ≠ [] → v ≠ [] → u <:+ before → v <+: after → ¬ IsWord (u ++ v)

theorem parted_nil (t : Text) : Parted [] t := by
  intro u v hu _ hsuffix
  exact absurd (List.suffix_nil.mp hsuffix) hu

/-- A character that begins no word is passed by. -/
theorem Parted.skip {before t : Text} {c : Char} (h : Parted before (c :: t))
    (hc : isWordCharacter c = false) : Parted (before ++ [c]) t := by
  intro u v hu hv hsuffix hprefix hword
  obtain ⟨u, rfl, hu'⟩ : ∃ u', u = u' ++ [c] ∧ u' <:+ before := by
    simpa [hu] using List.suffix_concat_iff.mp hsuffix
  rw [List.append_assoc, List.singleton_append] at hword
  by_cases hnil : u = []
  · subst hnil
    have hstart := hword.startsWord_eq
    simp [startsWord, hc] at hstart
  · exact h u (c :: v) hnil (by simp) hu' (List.cons_prefix_cons.mpr ⟨rfl, hprefix⟩) hword

theorem startsWord_of_prefix {u t : Text} (h : u <+: t) (hu : startsWord u = true) :
    startsWord t = true := by
  obtain ⟨v, rfl⟩ := h
  cases u with
  | nil => simp [startsWord] at hu
  | cons c u => exact hu

theorem parted_takeWord (before t : Text) : Parted before (takeWord t).2 := by
  intro u v hu hv _ hprefix hword
  obtain ⟨d, v, rfl⟩ := List.exists_cons_of_ne_nil hv
  obtain ⟨rest, hrest⟩ := hprefix
  obtain ⟨hd, hconnector⟩ := stop_of_takeWord (d := d) (v := v ++ rest) (by rw [← hrest]; rfl)
  rcases hword.of_append hu with h | ⟨h, hstart⟩
  · simp [hd] at h
  · have hstart' := startsWord_of_prefix (List.prefix_append v rest) hstart
    simp [hconnector h] at hstart'

/-! ## Factors -/

/-- A factor of a text, with what stands around it. -/
structure Factor where
  before : Text
  word : Text
  after : Text
  deriving DecidableEq

namespace Factor

variable {f g : Factor} {t : Text}

def text (f : Factor) : Text := f.before ++ f.word ++ f.after

/-- The number of characters in front of the factor. -/
def start (f : Factor) : ℕ := f.before.length

/-- The number of characters up to the end of the factor. -/
def stop (f : Factor) : ℕ := f.before.length + f.word.length

/-- The character with this number is one of the factor. -/
def Holds (f : Factor) (n : ℕ) : Prop := f.start ≤ n ∧ n < f.stop

/-- The factor is a part of another. -/
def Within (f g : Factor) : Prop := g.start ≤ f.start ∧ f.stop ≤ g.stop

/-- A factor of the text that is a word. -/
structure IsWordOf (t : Text) (f : Factor) : Prop where
  text_eq : f.text = t
  isWord : IsWord f.word

/-- A word that is part of no other. -/
structure IsMaximal (t : Text) (f : Factor) : Prop where
  isWordOf : f.IsWordOf t
  eq_of_within : ∀ g : Factor, g.IsWordOf t → f.Within g → g = f

/-- A word over the ends of which no word reaches. -/
structure Apart (t : Text) (f : Factor) : Prop where
  isWordOf : f.IsWordOf t
  parted_start : Parted f.before (f.word ++ f.after)
  parted_stop : Parted (f.before ++ f.word) f.after

theorem IsWordOf.start_lt_stop (h : f.IsWordOf t) : f.start < f.stop :=
  Nat.lt_add_of_pos_right h.isWord.length_pos

theorem IsWordOf.eq (hf : f.IsWordOf t) (hg : g.IsWordOf t) (hstart : f.start = g.start)
    (hstop : f.stop = g.stop) : f = g := by
  have htext : f.before ++ (f.word ++ f.after) = g.before ++ (g.word ++ g.after) := by
    rw [← List.append_assoc, ← List.append_assoc]
    exact hf.text_eq.trans hg.text_eq.symm
  obtain ⟨hbefore, hrest⟩ := List.append_inj htext hstart
  obtain ⟨hword, hafter⟩ := List.append_inj hrest (by simp only [start, stop] at *; omega)
  cases f
  cases g
  simp_all

/-- A word lies on one side of a place over which no word reaches. -/
theorem IsWordOf.of_parted {before after : Text} (hparted : Parted before after)
    (hg : g.IsWordOf (before ++ after)) : g.stop ≤ before.length ∨ before.length ≤ g.start := by
  by_contra hcross
  simp only [start, stop, not_or, not_le] at hcross
  obtain ⟨hstop, hstart⟩ := hcross
  have htext : g.before ++ (g.word ++ g.after) = before ++ after := by
    rw [← List.append_assoc]
    exact hg.text_eq
  obtain ⟨u, rfl, hu⟩ : ∃ u, before = g.before ++ u ∧ g.word ++ g.after = u ++ after := by
    rcases List.append_eq_append_iff.mp htext with ⟨u, hbefore, hrest⟩ | ⟨u, hbefore, -⟩
    · exact ⟨u, hbefore, hrest⟩
    · rw [hbefore, List.length_append] at hstart
      omega
  rw [List.length_append] at hstop hstart
  obtain ⟨v, hword, hafter⟩ : ∃ v, g.word = u ++ v ∧ after = v ++ g.after := by
    rcases List.append_eq_append_iff.mp hu with ⟨v, hv, -⟩ | ⟨v, hword, hafter⟩
    · rw [hv, List.length_append] at hstop
      omega
    · exact ⟨v, hword, hafter⟩
  rw [hword, List.length_append] at hstop
  refine hparted u v ?_ ?_ (List.suffix_append _ _) ⟨_, hafter.symm⟩ (hword ▸ hg.isWord)
  · rintro rfl
    simp at hstart
  · rintro rfl
    simp at hstop

theorem Apart.within (hf : f.Apart t) (hg : g.IsWordOf t) (hstart : g.start < f.stop)
    (hstop : f.start < g.stop) : g.Within f := by
  have htext := hf.isWordOf.text_eq
  constructor
  · rw [← htext, text, List.append_assoc] at hg
    exact (hg.of_parted hf.parted_start).resolve_left hstop.not_ge
  · rw [← htext, text] at hg
    have hlength : (f.before ++ f.word).length = f.stop := List.length_append
    have hside := hg.of_parted hf.parted_stop
    rw [hlength] at hside
    exact hside.resolve_right hstart.not_ge

theorem Apart.eq (hf : f.Apart t) (hg : g.Apart t) (hstart : g.start < f.stop)
    (hstop : f.start < g.stop) : f = g := by
  obtain ⟨hle, hge⟩ := hf.within hg.isWordOf hstart hstop
  obtain ⟨hle', hge'⟩ := hg.within hf.isWordOf hstop hstart
  exact hf.isWordOf.eq hg.isWordOf (le_antisymm hle hle') (le_antisymm hge' hge)

theorem Apart.isMaximal (hf : f.Apart t) : f.IsMaximal t := by
  refine ⟨hf.isWordOf, fun g hg hwithin => ?_⟩
  have hlt := hf.isWordOf.start_lt_stop
  obtain ⟨hstart, hstop⟩ := hwithin
  obtain ⟨hstart', hstop'⟩ := hf.within hg (hstart.trans_lt hlt) (hlt.trans_le hstop)
  exact hg.eq hf.isWordOf (le_antisymm hstart hstart') (le_antisymm hstop' hstop)

end Factor

/-! ## The factors found -/

@[simp] theorem words_nil : words [] = [] := by rw [words]

theorem words_of_word {c : Char} (hc : isWordCharacter c = true) (t : Text) :
    words (c :: t) = (c :: (takeWord t).1) :: words (takeWord t).2 := by
  rw [words, if_pos hc]

theorem words_of_other {c : Char} (hc : isWordCharacter c = false) (t : Text) :
    words (c :: t) = words t := by
  rw [words, if_neg (by simp [hc])]

/-- Factors that are found one behind another behind the front part of a text: no word reaches over
their ends, and all words that begin there lie within them. -/
structure Finds (before t : Text) (fs : List Factor) : Prop where
  words_eq : fs.map Factor.word = words t
  apart : ∀ f ∈ fs, f.Apart (before ++ t)
  behind : ∀ f ∈ fs, before.length ≤ f.start
  ordered : fs.Pairwise fun f g => f.stop ≤ g.start
  covers : ∀ g : Factor, g.IsWordOf (before ++ t) → before.length ≤ g.start →
    ∃ f ∈ fs, g.Within f

theorem Finds.nil (before : Text) : Finds before [] [] := by
  refine ⟨by simp, by simp, by simp, .nil, fun g hg hle => ?_⟩
  have hlength := congrArg List.length hg.text_eq
  have hlt := hg.start_lt_stop
  simp only [Factor.text, Factor.start, Factor.stop, List.length_append, List.length_nil] at *
  omega

theorem Finds.skip {before t : Text} {c : Char} {fs : List Factor}
    (h : Finds (before ++ [c]) t fs) (hc : isWordCharacter c = false) :
    Finds before (c :: t) fs := by
  have htext : before ++ [c] ++ t = before ++ c :: t := by simp
  obtain ⟨hwords, hapart, hbehind, hordered, hcovers⟩ := h
  rw [htext] at hapart hcovers
  rw [List.length_append, List.length_singleton] at hbehind hcovers
  refine ⟨?_, hapart, fun f hf => (Nat.le_succ _).trans (hbehind f hf), hordered,
    fun g hg hle => ?_⟩
  · rw [words_of_other hc, hwords]
  · -- The word does not begin with the character that is passed by.
    rcases hle.eq_or_lt with heq | hlt
    · have hrest := (List.append_inj ((List.append_assoc _ _ _).symm.trans hg.text_eq) heq.symm).2
      have hstart := startsWord_of_prefix ⟨g.after, hrest⟩ hg.isWord.startsWord_eq
      simp [startsWord, hc] at hstart
    · exact hcovers g hg hlt

theorem Finds.take {before t : Text} {c : Char} {fs : List Factor}
    (hparted : Parted before (c :: t)) (hc : isWordCharacter c = true)
    (h : Finds (before ++ c :: (takeWord t).1) (takeWord t).2 fs) :
    Finds before (c :: t) (⟨before, c :: (takeWord t).1, (takeWord t).2⟩ :: fs) := by
  have hcut : c :: (takeWord t).1 ++ (takeWord t).2 = c :: t := by
    rw [List.cons_append, takeWord_append]
  have htext : before ++ c :: (takeWord t).1 ++ (takeWord t).2 = before ++ c :: t := by
    rw [List.append_assoc, hcut]
  obtain ⟨hwords, hapart, hbehind, hordered, hcovers⟩ := h
  rw [htext] at hapart hcovers
  rw [List.length_append] at hbehind hcovers
  have hfirst : (Factor.mk before (c :: (takeWord t).1) (takeWord t).2).Apart (before ++ c :: t) :=
    ⟨⟨htext, (isWord_takeWord t).2 c hc⟩, hcut.symm ▸ hparted, parted_takeWord _ t⟩
  refine ⟨?_, List.forall_mem_cons.mpr ⟨hfirst, hapart⟩, List.forall_mem_cons.mpr ⟨le_rfl,
    fun f hf => (Nat.le_add_right _ _).trans (hbehind f hf)⟩, .cons hbehind hordered,
    fun g hg hle => ?_⟩
  · rw [words_of_word hc, List.map_cons, hwords]
  · by_cases hlt : g.start < before.length + (c :: (takeWord t).1).length
    · exact ⟨_, List.mem_cons_self, hfirst.within hg hlt (hle.trans_lt hg.start_lt_stop)⟩
    · obtain ⟨f, hf, hwithin⟩ := hcovers g hg (not_lt.mp hlt)
      exact ⟨f, List.mem_cons_of_mem _ hf, hwithin⟩

theorem exists_finds {before t : Text} (h : Parted before t) : ∃ fs, Finds before t fs := by
  induction t using words.induct generalizing before with
  | case1 => exact ⟨[], .nil before⟩
  | case2 c t hc =>
    rename_i ih
    obtain ⟨fs, hfs⟩ := ih (parted_takeWord (before ++ c :: (takeWord t).1) t)
    exact ⟨_, hfs.take h hc⟩
  | case3 c t hc ih =>
    have hc : isWordCharacter c = false := by simpa using hc
    obtain ⟨fs, hfs⟩ := ih (h.skip hc)
    exact ⟨fs, hfs.skip hc⟩

section Separator

variable {c : Char} (hword : isWordCharacter c = false) (hconnector : isConnector c = false)

include hword

theorem startsWord_append_cons (a b : Text) : startsWord (a ++ c :: b) = startsWord a := by
  cases a with
  | nil => exact hword
  | cons d a => rfl

include hconnector

theorem takeWord_append_cons (a b : Text) :
    takeWord (a ++ c :: b) = ((takeWord a).1, (takeWord a).2 ++ c :: b) := by
  induction a with
  | nil => simp [takeWord, hword, hconnector]
  | cons d a ih =>
    rw [List.cons_append, takeWord, takeWord, startsWord_append_cons hword, ih]
    split <;> rfl

/-- A character that no word can hold divides the words of a text. -/
theorem words_append_cons (a b : Text) : words (a ++ c :: b) = words a ++ words b := by
  induction a using words.induct with
  | case1 => rw [List.nil_append, words_of_other hword, words_nil, List.nil_append]
  | case2 d a hd =>
    rename_i ih
    rw [List.cons_append, words_of_word hd, takeWord_append_cons hword hconnector, ih,
      words_of_word hd, List.cons_append]
  | case3 d a hd ih =>
    have hd : isWordCharacter d = false := by simpa using hd
    rw [List.cons_append, words_of_other hd, ih, words_of_other hd]

end Separator

namespace Finds

variable {t : Text} {fs : List Factor} {f : Factor}

theorem mem_iff_isMaximal (h : Finds [] t fs) : f ∈ fs ↔ f.IsMaximal t := by
  constructor
  · exact fun hf => (h.apart f hf).isMaximal
  · intro hf
    obtain ⟨g, hg, hwithin⟩ := h.covers f hf.isWordOf (Nat.zero_le _)
    rwa [← hf.eq_of_within g (h.apart g hg).isWordOf hwithin]

/-- A word character is a word, so it lies within a factor that is found; it cannot lie within
two. -/
theorem existsUnique_holds (h : Finds [] t fs) {front back : Text} {c : Char}
    (ht : t = front ++ c :: back) (hc : isWordCharacter c = true) :
    ∃! f, f ∈ fs ∧ f.Holds front.length := by
  have hword : (Factor.mk front [c] back).IsWordOf t := ⟨by simp [Factor.text, ht], .single hc⟩
  obtain ⟨f, hf, hstart, hstop⟩ := h.covers _ hword (Nat.zero_le _)
  have hholds : f.Holds front.length := ⟨hstart, Nat.lt_of_succ_le hstop⟩
  refine ⟨f, ⟨hf, hholds⟩, fun g ⟨hg, hg'⟩ => ?_⟩
  exact (h.apart g hg).eq (h.apart f hf) (hholds.1.trans_lt hg'.2) (hg'.1.trans_lt hholds.2)

theorem isWord_of_mem (h : Finds [] t fs) {w : Text} (hw : w ∈ words t) : IsWord w := by
  rw [← h.words_eq, List.mem_map] at hw
  obtain ⟨f, hf, rfl⟩ := hw
  exact (h.apart f hf).isWordOf.isWord

end Finds

theorem IsWord.not_isConnector {w : Text} (h : IsWord w) {c : Char}
    (hc : w.head? = some c ∨ w.getLast? = some c) : isConnector c = false := by
  have hword : isWordCharacter c = true := by
    rcases hc with hc | hc
    · obtain ⟨v, rfl⟩ := List.head?_eq_some_iff.mp hc
      exact h.startsWord_eq
    · obtain ⟨u, d, rfl, hd⟩ := h.exists_concat
      obtain rfl : d = c := by simpa using hc
      exact hd
  by_contra hconnector
  rw [Bool.not_eq_false] at hconnector
  simp [not_isWordCharacter_of_isConnector hconnector] at hword

open Rule in
/-- The words of a text are its maximal factors of the kind, from left to right: each word character
is in exactly one of them, and none begins or ends with a connector. The words on the two sides of a
character that no word can hold are found apart, so that their numbers are added, and each is
complained of as it would be without the other side. -/
theorem words_maximal :
    (∀ t : Text, ∃ fs : List Factor, fs.map Factor.word = words t ∧
      fs.Pairwise (fun f g => f.stop ≤ g.start) ∧ (∀ f, f ∈ fs ↔ f.IsMaximal t) ∧
      ∀ front c back, t = front ++ c :: back → isWordCharacter c = true →
        ∃! f, f ∈ fs ∧ f.Holds front.length) ∧
    (∀ t : Text, ∀ w ∈ words t, ∀ c, w.head? = some c ∨ w.getLast? = some c →
      isConnector c = false) ∧
    ∀ (a : Text) (c : Char) (b : Text), isWordCharacter c = false → isConnector c = false →
      words (a ++ c :: b) = words a ++ words b ∧
      (∀ (max : ℕ) (s : Sentence), WordNumber.check max { s with content := a ++ c :: b } = [] ↔
        (words a).length + (words b).length ≤ max) ∧
      ∀ (unwanted : List Text) (s : Sentence),
        (InvalidWord.check unwanted { s with content := a ++ c :: b }).map Finding.message =
          (InvalidWord.check unwanted { s with content := a }).map Finding.message ++
            (InvalidWord.check unwanted { s with content := b }).map Finding.message := by
  refine ⟨fun t => ?_, fun t w hw c hc => ?_, fun a c b hword hconnector => ⟨?_, ?_, ?_⟩⟩
  · obtain ⟨fs, hfs⟩ := exists_finds (parted_nil t)
    exact ⟨fs, hfs.words_eq, hfs.ordered, fun f => hfs.mem_iff_isMaximal,
      fun front c back ht hc => hfs.existsUnique_holds ht hc⟩
  · obtain ⟨fs, hfs⟩ := exists_finds (parted_nil t)
    exact (hfs.isWord_of_mem hw).not_isConnector hc
  · exact words_append_cons hword hconnector a b
  · intro max s
    simp [WordNumber.check, words_append_cons hword hconnector]
  · intro unwanted s
    simp [InvalidWord.check, words_append_cons hword hconnector, Finding.onSentence,
      Function.comp_def]

/-- Connectors that are doubled, at the edges and in front of no word character. -/
theorem words_maximal_of_stray_connectors :
    let a := "'It’s a--".toList
    let b := "-well-known'".toList
    let t := a ++ '.' :: b
    isWordCharacter '.' = false ∧ isConnector '.' = false ∧
      words t = ["It’s".toList, "a".toList, "well-known".toList] ∧
      words t = words a ++ words b ∧
      (∃ fs : List Factor, fs.map Factor.word = words t ∧ (∀ f, f ∈ fs ↔ f.IsMaximal t) ∧
        isWordCharacter 'k' = true ∧
        ∃! f, f ∈ fs ∧ f.Holds ("'It’s a--.-well-".toList).length) ∧
      isConnector 'n' = false := by
  intro a b t
  have hword : isWordCharacter '.' = false := by decide +kernel
  have hconnector : isConnector '.' = false := by decide
  have hletter : isWordCharacter 'k' = true := by decide +kernel
  have hwords : words t = ["It’s".toList, "a".toList, "well-known".toList] := by
    decide +kernel
  obtain ⟨hfactors, hends, hparts⟩ := words_maximal
  obtain ⟨fs, hfs, -, hmaximal, hunique⟩ := hfactors t
  refine ⟨hword, hconnector, hwords, (hparts a '.' b hword hconnector).1,
    ⟨fs, hfs, hmaximal, hletter, hunique _ 'k' "nown'".toList rfl hletter⟩, ?_⟩
  exact hends t "well-known".toList (by simp [hwords]) 'n' (.inr rfl)

end ProseLint.Words
