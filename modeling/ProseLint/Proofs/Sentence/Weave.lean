import ProseLint.Proofs.Text.Ink
import ProseLint.Sentence

/-!
# Texts woven from sentences

A marked text is woven from sentences when it consists of stretches that went into them, one after
another, with nothing but blanks in front of each. In a strict weave a stretch is the content of its
sentence; otherwise the two may differ in blanks. The text is covered by the sentences when blanks
may also follow the last of them.
-/
namespace ProseLint

/-- What a sentence says and on which line it begins; its flag and its links are left out. -/
def Sentence.body (s : Sentence) : Text × ℕ := (s.content, s.line)

@[simp] theorem map_fst_body (ss : List Sentence) :
    (ss.map Sentence.body).map Prod.fst = ss.map (·.content) := by simp [Sentence.body]

@[simp] theorem flatMap_fst_body (ss : List Sentence) :
    (ss.map Sentence.body).flatMap Prod.fst = ss.flatMap (·.content) := by
  simp [List.flatMap_map, Sentence.body]

/-- Gaps and parts by turns, beginning with a gap. -/
def weave : List Text → List Text → Text
  | [], _ => []
  | g :: _, [] => g
  | g :: gs, p :: ps => g ++ p ++ weave gs ps

section

variable {α : Type*} (line : α → ℕ) (strict : Prop)

/-- A stretch of marked text that has become a sentence: its first character opens the sentence, on
the line of its mark, and all of its ink is there. -/
structure Fills (b : Text × ℕ) (m : Marked α) : Prop where
  first : ∃ x rest, m = x :: rest ∧ isBlank x.1 = false ∧ b.1.head? = some x.1 ∧ line x.2 = b.2
  ink_eq : Text.ink b.1 = Text.ink (Marked.text m)
  eq_text : strict → b.1 = Marked.text m

/-- Sentences one after another, each behind a gap of blanks. -/
inductive Woven : List (Text × ℕ) → Marked α → Prop
  | nil : Woven [] []
  | cons {b bs gap stretch m} (blank : Marked.Blank gap) (fills : Fills line strict b stretch)
      (ends : Text.EndsInInk b.1) (rest : Woven bs m) : Woven (b :: bs) (gap ++ stretch ++ m)

/-- Sentences one after another, and blanks behind the last of them. -/
def Covered (bs : List (Text × ℕ)) (m : Marked α) : Prop :=
  ∃ woven gap, m = woven ++ gap ∧ Woven line strict bs woven ∧ Marked.Blank gap

end

variable {α : Type*} {line : α → ℕ} {strict : Prop}

namespace Fills

variable {b : Text × ℕ} {m n : Marked α}

theorem of_text {x : Char × α} {rest : Marked α} (hx : isBlank x.1 = false) :
    Fills line strict (Marked.text (x :: rest), line x.2) (x :: rest) :=
  ⟨⟨x, rest, rfl, hx, by simp, rfl⟩, rfl, fun _ => rfl⟩

theorem append (h : Fills line strict b m) (n : Marked α) :
    Fills line strict (b.1 ++ Marked.text n, b.2) (m ++ n) := by
  obtain ⟨⟨x, rest, rfl, hx, hhead, hline⟩, hink, heq⟩ := h
  refine ⟨⟨x, rest ++ n, rfl, hx, ?_, hline⟩, ?_, ?_⟩
  · simp [List.head?_append, hhead]
  · rw [Text.ink_append, hink, ← Text.ink_append, ← Marked.text_append, List.cons_append]
  · intro hs
    simp [heq hs]

theorem append_blank (h : Fills line strict b m) (hs : ¬ strict) (hn : Marked.Blank n) :
    Fills line strict b (m ++ n) := by
  obtain ⟨⟨x, rest, rfl, hx, hhead, hline⟩, hink, _⟩ := h
  refine ⟨⟨x, rest ++ n, rfl, hx, hhead, hline⟩, ?_, fun h => absurd h hs⟩
  rw [Marked.text_append, Text.ink_append, hn.ink_text, List.append_nil, hink]

theorem trimEnd (h : Fills line strict b m) (hs : ¬ strict) :
    Fills line strict (Text.trimEnd b.1, b.2) m := by
  obtain ⟨⟨x, rest, rfl, hx, hhead, hline⟩, hink, _⟩ := h
  exact ⟨⟨x, rest, rfl, hx, Text.head?_trimEnd hhead hx, hline⟩, by simpa using hink,
    fun h => absurd h hs⟩

theorem trimEnd_ne_nil (h : Fills line strict b m) : Text.trimEnd b.1 ≠ [] := by
  obtain ⟨x, _, _, hx, hhead, _⟩ := h.first
  intro he
  have := Text.head?_trimEnd hhead hx
  simp [he] at this

/-- In a strict filling the blanks at the end can be told apart from the rest. -/
theorem exists_trimEnd (h : Fills line strict b m) :
    ∃ stretch gap, m = stretch ++ gap ∧ Marked.Blank gap ∧
      Fills line strict (Text.trimEnd b.1, b.2) stretch := by
  by_cases hs : strict
  · obtain ⟨⟨x, rest, hm, hx, hhead, hline⟩, _, heq⟩ := h
    obtain ⟨w, hb, hw⟩ := Text.exists_trimEnd_append b.1
    have htext : Marked.text m = Text.trimEnd b.1 ++ w := by rw [← heq hs, ← hb]
    obtain ⟨m₁, m₂, rfl, h₁, h₂⟩ := Marked.exists_append_of_text htext
    have hhead' := Text.head?_trimEnd hhead hx
    cases m₁ with
    | nil =>
      rw [← h₁] at hhead'
      simp at hhead'
    | cons y m₁ =>
      rw [List.cons_append, List.cons.injEq] at hm
      rw [← hm.1] at hx hhead' hline
      refine ⟨y :: m₁, m₂, rfl, ?_, ⟨y, m₁, rfl, hx, hhead', hline⟩, by rw [h₁], fun _ => h₁.symm⟩
      exact Marked.blank_iff_text.mpr (by rwa [h₂])
  · exact ⟨m, [], by simp, Marked.blank_nil, h.trimEnd hs⟩

end Fills

namespace Woven

variable {b : Text × ℕ} {bs cs : List (Text × ℕ)} {m n : Marked α}

theorem covered (h : Woven line strict bs m) : Covered line strict bs m :=
  ⟨m, [], by simp, h, Marked.blank_nil⟩

/-- Where blanks need not match, those behind the last sentence can be counted to it. -/
theorem append_blank (h : Woven line strict bs m) (hbs : bs ≠ []) (hs : ¬ strict)
    (hn : Marked.Blank n) : Woven line strict bs (m ++ n) := by
  induction h with
  | nil => exact absurd rfl hbs
  | @cons b bs gap stretch m blank fills ends rest ih =>
    cases rest with
    | nil =>
      have hlast := Woven.cons blank (fills.append_blank hs hn) ends .nil
      simpa using hlast
    | cons =>
      rw [List.append_assoc]
      exact .cons blank fills ends (ih (by simp))

/-- Ink that follows the last sentence directly can be added to it. -/
theorem append_last (h : Woven line strict (bs ++ [b]) m) (hn : Text.EndsInInk (Marked.text n)) :
    Woven line strict (bs ++ [(b.1 ++ Marked.text n, b.2)]) (m ++ n) := by
  induction bs generalizing m with
  | nil =>
    cases h with
    | cons blank fills ends rest =>
      cases rest
      have hlast := Woven.cons blank (fills.append n) (ends.append hn) .nil
      simpa using hlast
  | cons c bs ih =>
    cases h with
    | cons blank fills ends rest =>
      rw [List.append_assoc]
      exact .cons blank fills ends (ih rest)

end Woven

namespace Covered

variable {b : Text × ℕ} {bs cs : List (Text × ℕ)} {m n : Marked α}

theorem nil : Covered line strict [] ([] : Marked α) := Woven.nil.covered

theorem append_blank (h : Covered line strict bs m) (hn : Marked.Blank n) :
    Covered line strict bs (m ++ n) := by
  obtain ⟨w, gap, rfl, hw, hgap⟩ := h
  exact ⟨w, gap ++ n, by simp, hw, hgap.append hn⟩

theorem cons {gap stretch : Marked α} (blank : Marked.Blank gap)
    (fills : Fills line strict b stretch) (ends : Text.EndsInInk b.1)
    (h : Covered line strict bs m) :
    Covered line strict (b :: bs) (gap ++ stretch ++ m) := by
  obtain ⟨w, gap', rfl, hw, hgap'⟩ := h
  exact ⟨gap ++ stretch ++ w, gap', by simp, .cons blank fills ends hw, hgap'⟩

theorem append (h : Covered line strict bs m) (h' : Covered line strict cs n) :
    Covered line strict (bs ++ cs) (m ++ n) := by
  obtain ⟨w, gap, rfl, hw, hgap⟩ := h
  rw [List.append_assoc]
  induction hw with
  | nil =>
    -- the gap in front of the second text grows
    obtain ⟨w', gap', rfl, hw', hgap'⟩ := h'
    cases hw' with
    | nil => exact ⟨[], gap ++ gap', by simp, .nil, hgap.append hgap'⟩
    | @cons b cs g stretch m blank fills ends rest =>
      refine ⟨(gap ++ g) ++ stretch ++ m, gap', by simp, ?_, hgap'⟩
      exact .cons (hgap.append blank) fills ends rest
  | cons blank fills ends _ ih =>
    rw [List.append_assoc]
    exact ih.cons blank fills ends

theorem snoc_woven (h : Covered line strict bs m) (hb : Fills line strict b n)
    (hends : Text.EndsInInk b.1) : Woven line strict (bs ++ [b]) (m ++ n) := by
  obtain ⟨w, gap, rfl, hw, hgap⟩ := h
  induction hw with
  | nil => simpa using Woven.cons hgap hb hends .nil
  | cons blank fills ends _ ih =>
    rw [List.append_assoc, List.append_assoc, ← List.append_assoc _ gap]
    exact .cons blank fills ends ih

/-- What is finished is trimmed at its end. -/
theorem finish (h : Covered line strict bs m) (hb : Fills line strict b n) :
    Covered line strict (bs ++ [(Text.trimEnd b.1, b.2)]) (m ++ n) := by
  obtain ⟨stretch, gap, rfl, hgap, hfills⟩ := hb.exists_trimEnd
  rw [← List.append_assoc]
  exact (h.snoc_woven hfills (Text.endsInInk_trimEnd _)).covered.append_blank hgap

/-- No blanks are left behind a sentence that ends in ink, or need not be matched in its blanks. -/
theorem finish_woven (h : Covered line strict bs m) (hb : Fills line strict b n)
    (hends : strict → Text.EndsInInk b.1) :
    Woven line strict (bs ++ [(Text.trimEnd b.1, b.2)]) (m ++ n) := by
  refine h.snoc_woven ?_ (Text.endsInInk_trimEnd _)
  by_cases hs : strict
  · rwa [(hends hs).trimEnd_eq]
  · exact hb.trimEnd hs

theorem ink_eq (h : Covered line strict bs m) :
    Text.ink (bs.flatMap Prod.fst) = Text.ink (Marked.text m) := by
  obtain ⟨w, gap, rfl, hw, hgap⟩ := h
  rw [Marked.text_append, Text.ink_append, hgap.ink_text, List.append_nil]
  clear hgap
  induction hw with
  | nil => rfl
  | cons blank fills _ _ ih =>
    simp only [List.flatMap_cons, Marked.text_append, Text.ink_append, blank.ink_text, fills.ink_eq,
      ih, List.nil_append]

/-- The text of one sentence, between what the sentences before it and behind it cover. -/
theorem split {ds : List (Text × ℕ)} (h : Covered line strict (cs ++ b :: ds) m) :
    ∃ before stretch after, m = before ++ stretch ++ after ∧ Covered line strict cs before ∧
      Fills line strict b stretch ∧ Covered line strict ds after := by
  obtain ⟨w, gap, rfl, hw, hgap⟩ := h
  induction cs generalizing w with
  | nil =>
    cases hw with
    | @cons _ _ g stretch m blank fills ends rest =>
      exact ⟨g, stretch, m ++ gap, by simp, nil.append_blank blank, fills, m, gap, rfl, rest, hgap⟩
  | cons c cs ih =>
    cases hw with
    | @cons _ _ g s m blank fills ends rest =>
      obtain ⟨before, stretch, after, hm, hbefore, hfills, hafter⟩ := ih m rest
      refine ⟨g ++ s ++ before, stretch, after, ?_, hbefore.cons blank fills ends, hfills, hafter⟩
      rw [List.append_assoc, hm]
      simp

/-- The first character of a sentence stands where the ink of the sentences before it ends. -/
theorem exists_first {i : ℕ} (h : Covered line strict bs m) (hi : bs[i]? = some b) :
    ∃ before x after, m = before ++ x :: after ∧
      Text.ink (Marked.text before) = Text.ink ((bs.take i).flatMap Prod.fst) ∧
      isBlank x.1 = false ∧ b.1.head? = some x.1 ∧ line x.2 = b.2 := by
  obtain ⟨hlt, rfl⟩ := List.getElem?_eq_some_iff.mp hi
  have hbs : bs = bs.take i ++ bs[i] :: bs.drop (i + 1) := by simp
  rw [hbs] at h
  obtain ⟨before, _, after, rfl, hbefore, ⟨⟨x, rest, rfl, hx, hhead, hline⟩, _, _⟩, _⟩ := h.split
  exact ⟨before, x, rest ++ after, by simp, hbefore.ink_eq.symm, hx, hhead, hline⟩

/-- The first characters of the sentences stand in the order of the sentences. -/
theorem exists_firsts (h : Covered line strict bs m) :
    ∃ firsts, firsts.Sublist (Marked.ink m) ∧
      List.Forall₂ (fun b x => line x.2 = b.2) bs firsts := by
  obtain ⟨w, gap, rfl, hw, _⟩ := h
  induction hw with
  | nil => exact ⟨[], by simp, .nil⟩
  | @cons b bs g stretch m _ fills _ _ ih =>
    obtain ⟨firsts, hsub, hall⟩ := ih
    obtain ⟨⟨x, rest, rfl, hx, _, hline⟩, _, _⟩ := fills
    refine ⟨x :: firsts, ?_, .cons hline hall⟩
    have hstretch : [x].Sublist (Marked.ink (g ++ x :: rest)) := by simp [Marked.ink, hx]
    rw [List.append_assoc, Marked.ink_append]
    exact hstretch.append hsub

/-- A strictly covered text is its sentences and the gaps around them, and the mark at which each
sentence begins is on the line of the sentence. -/
theorem exists_gaps (h : Covered line strict bs m) (hs : strict) :
    ∃ gaps : List Text, gaps.length = bs.length + 1 ∧
      (∀ g ∈ gaps, ∀ c ∈ g, isBlank c = true) ∧ Marked.text m = weave gaps (bs.map Prod.fst) ∧
      ∀ i b, bs[i]? = some b → b.1.EndsInInk ∧
        ∃ x, m[(weave (gaps.take (i + 1)) ((bs.map Prod.fst).take i)).length]? = some x ∧
          isBlank x.1 = false ∧ b.1.head? = some x.1 ∧ line x.2 = b.2 := by
  obtain ⟨w, gap, rfl, hw, hgap⟩ := h
  induction hw with
  | nil =>
    refine ⟨[Marked.text gap], rfl, ?_, by simp [weave], by simp⟩
    simpa using Marked.blank_iff_text.mp hgap
  | @cons b bs g stretch m blank fills ends _ ih =>
    obtain ⟨gaps, hlen, hgaps, htext, hfirst⟩ := ih
    refine ⟨Marked.text g :: gaps, by simp [hlen], ?_, ?_, ?_⟩
    · intro t ht
      rcases List.mem_cons.mp ht with rfl | ht
      · exact Marked.blank_iff_text.mp blank
      · exact hgaps t ht
    · rw [List.append_assoc, Marked.text_append, htext, List.map_cons, weave, fills.eq_text hs,
        Marked.text_append]
    · intro i c hi
      cases i with
      | zero =>
        obtain rfl : b = c := by simpa using hi
        obtain ⟨⟨x, rest, rfl, hx, hhead, hline⟩, _, _⟩ := fills
        exact ⟨ends, x, by simp [weave], hx, hhead, hline⟩
      | succ i =>
        obtain ⟨hends, x, hget, hx⟩ := hfirst i c hi
        refine ⟨hends, x, ?_, hx⟩
        rw [List.take_succ_cons, List.map_cons, List.take_succ_cons, weave, fills.eq_text hs,
          ← Marked.text_append, List.length_append, Marked.length_text, List.append_assoc,
          List.getElem?_append_right (Nat.le_add_right _ _), Nat.add_sub_cancel_left, hget]

end Covered
end ProseLint
