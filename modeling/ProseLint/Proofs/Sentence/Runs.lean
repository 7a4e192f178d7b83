import ProseLint.Proofs.Sentence.Whole

/-!
# Runs of terminators in two spans

When no terminator is a blank, what a span says on its own is read off its segments. A span that
ends in a run of terminators has ended its sentence, whatever comes next: of the next span only the
closers in front still go to that sentence, and the rest is read on its own. So two parts of a run
close one sentence together only when the second part is made of closers.
-/
namespace ProseLint

/-- The sentence that a text begins, without the blanks in front. -/
def Sentence.opened (n : ℕ) (t : Text) : Sentence := { content := Text.trimStart t, line := n }

/-- The sentence that is left of a text in which none ends: none if the text is blank. -/
def Sentence.remaining (n : ℕ) (t : Text) : List Sentence :=
  if Text.trim t = [] then [] else [{ content := Text.trim t, line := n }]

@[simp] theorem Sentence.remaining_nil (n : ℕ) : remaining n [] = [] := rfl

namespace Terminators

variable {T : Terminators}

/-- The sentences of a text that stands on its own: one for each segment, and what is left. -/
def sentences (T : Terminators) (n : ℕ) (t : Text) : List Sentence :=
  (T.segments t).1.map (Sentence.opened n) ++ Sentence.remaining n (T.segments t).2

@[simp] theorem sentences_nil (n : ℕ) : T.sentences n [] = [] := by
  rw [sentences, segments_of_cut_none rfl]
  rfl

theorem EndsRun.ne_nil {t : Text} (h : T.EndsRun t) : t ≠ [] := by
  obtain ⟨before, c, closers, rfl, -⟩ := h
  simp

theorem EndsRun.append_closers {t k : Text} (h : T.EndsRun t) (hk : ∀ c ∈ k, isCloser c = true) :
    T.EndsRun (t ++ k) := by
  obtain ⟨before, c, closers, rfl, hc, hclosers⟩ := h
  exact ⟨before, c, closers ++ k, by simp, hc, List.forall_mem_append.mpr ⟨hclosers, hk⟩⟩

theorem EndsRun.sentences_eq {t : Text} (h : T.EndsRun t) (n : ℕ) :
    T.sentences n t = (T.segments t).1.map (Sentence.opened n) := by
  rw [sentences, h.segments_eq, Sentence.remaining_nil, List.append_nil]

/-- The sentences of segments tell how much ink the segments hold. -/
theorem ink_flatten_of_opened {segments segments' : List Text} {n : ℕ}
    (h : segments.map (Sentence.opened n) = segments'.map (Sentence.opened n)) :
    Text.ink segments.flatten = Text.ink segments'.flatten := by
  have hink : ∀ ts : List Text, Text.ink ts.flatten =
      (ts.map (Sentence.opened n)).flatMap fun x => Text.ink x.content := by
    intro ts
    induction ts with
    | nil => rfl
    | cons t ts ih => simp [ih, Sentence.opened]
  rw [hink, hink, h]

theorem ends_of_mem_opened (hT : T.Inked) {t : Text} {n : ℕ} {x : Sentence}
    (hx : x ∈ (T.segments t).1.map (Sentence.opened n)) : T.Ends x.content := by
  obtain ⟨a, ha, rfl⟩ := List.mem_map.mp hx
  exact (ends_of_mem_segments ha).trimStart hT

theorem cut_of_mem_remaining (hT : T.Inked) {t : Text} (ht : T.cut t = none) {n : ℕ} {x : Sentence}
    (hx : x ∈ Sentence.remaining n t) : T.cut x.content = none := by
  unfold Sentence.remaining at hx
  split at hx
  · simp at hx
  · obtain rfl := List.mem_singleton.mp hx
    obtain ⟨w, hw, hblank⟩ := Text.exists_append_trimStart t
    exact cut_trimEnd_eq_none hT (cut_eq_none_of_append hT hblank (hw ▸ ht))

/-- Ended sentences that a text begins with come from its first segments. -/
theorem exists_segments_of_sentences (hT : T.Inked) {t u : Text} {n : ℕ} {rest : List Sentence}
    (h : (T.segments t).1.map (Sentence.opened n) ++ rest = T.sentences n u) :
    ∃ front back, (T.segments u).1 = front ++ back ∧
      front.map (Sentence.opened n) = (T.segments t).1.map (Sentence.opened n) := by
  rw [sentences, List.append_eq_append_iff] at h
  rcases h with ⟨back, hback, -⟩ | ⟨extra, hextra, hremaining⟩
  · obtain ⟨front, back, hsegments, hfront, -⟩ := List.map_eq_append_iff.mp hback
    exact ⟨front, back, hsegments, hfront⟩
  · -- what is left of the text has no sentence end, so it is none of the ended sentences
    cases extra with
    | nil => exact ⟨(T.segments u).1, [], by simp, by simpa using hextra.symm⟩
    | cons x extra =>
      have hx : x ∈ (T.segments t).1.map (Sentence.opened n) := by simp [hextra]
      have hends := ends_of_mem_opened hT hx
      have hleft : x ∈ Sentence.remaining n (T.segments u).2 := by simp [hremaining]
      have hcut := cut_of_mem_remaining hT (T.segments_spec u).2.1 hleft
      exact absurd (hends.symm.trans hcut) (by simp)

theorem endsInInk_flatten_of_segments (hT : T.Inked) {t : Text} {front back : List Text}
    (h : (T.segments t).1 = front ++ back) : Text.EndsInInk front.flatten := by
  obtain rfl | ⟨front, a, rfl⟩ := List.eq_nil_or_concat' front
  · simp [Text.EndsInInk]
  · have ha : T.Ends a := ends_of_mem_segments (t := t) (by simp [h])
    rw [List.flatten_concat, Text.endsInInk_append_right ha.ne_nil]
    exact ha.endsInInk hT

theorem EndsRun.flatten_segments {t : Text} (h : T.EndsRun t) : (T.segments t).1.flatten = t := by
  have hspec := (T.segments_spec t).1
  rwa [h.segments_eq, List.append_nil] at hspec

/-- Behind a run the text is read anew just when a sentence of the whole ends there. -/
theorem sentences_append_iff (hT : T.Inked) {t v : Text} (ht : T.EndsRun t) (n : ℕ) :
    T.sentences n t ++ T.sentences n v = T.sentences n (t ++ v) ↔ T.EndsBehind t v := by
  constructor
  · intro h
    rw [ht.sentences_eq] at h
    obtain ⟨front, back, hsegments, hopened⟩ := exists_segments_of_sentences hT h
    have hwhole : front.flatten ++ (back.flatten ++ (T.segments (t ++ v)).2) = t ++ v := by
      rw [← List.append_assoc, ← List.flatten_append, ← hsegments]
      exact (T.segments_spec (t ++ v)).1
    have hink : Text.ink front.flatten = Text.ink t := by
      rw [ink_flatten_of_opened hopened, ht.flatten_segments]
    have hends := endsInInk_flatten_of_segments hT (List.append_nil (T.segments t).1).symm
    rw [ht.flatten_segments] at hends
    exact ⟨front, back, hsegments,
      Text.append_inj_of_ink hwhole hink (endsInInk_flatten_of_segments hT hsegments) hends⟩
  · intro h
    rw [ht.sentences_eq, sentences, sentences, h.segments_eq, List.map_append, List.append_assoc]

end Terminators

namespace Session

variable {T : Terminators} {s : Session} {n : ℕ}

theorem foldl_finishWith_of_none (hT : T.Inked) (hu : s.unfinished = none) {segments : List Text}
    (h : ∀ a ∈ segments, T.Ends a) : segments.foldl (finishWith n) s =
      { s with finished := s.finished ++ segments.map (Sentence.opened n) } := by
  induction segments generalizing s with
  | nil => simp
  | cons a segments ih =>
    obtain ⟨ha, hsegments⟩ := List.forall_mem_cons.mp h
    have hrest := ih (s := { s with finished := s.finished ++ [Sentence.opened n a] }) hu hsegments
    rw [List.foldl_cons, finishWith_of_none hT hu ha]
    exact hrest.trans (by simp)

theorem finished_close_merge (hu : s.unfinished = none) (t : Text) :
    (s.merge t n).1.close.finished = s.finished ++ Sentence.remaining n t := by
  by_cases ht : Text.trimStart t = []
  · have htrim : Text.trim t = [] := by rw [Text.trim, ht]; rfl
    simp [merge, hu, ht, close_of_none hu, Sentence.remaining, htrim]
  · by_cases htrim : Text.trimEnd (Text.trimStart t) = [] <;>
      simp [merge, hu, ht, close, Sentence.remaining, Text.trim, htrim]

/-- With nothing unfinished a text adds the sentences that it is made of. -/
theorem finished_close_taken (hT : T.Inked) (hu : s.unfinished = none) (t : Text) :
    (s.taken T n t).close.finished = s.finished ++ T.sentences n t := by
  rw [taken, close_withClosed,
    foldl_finishWith_of_none hT hu fun _ ha => Terminators.ends_of_mem_segments ha]
  dsimp only
  rw [finished_close_merge, Terminators.sentences, List.append_assoc]
  exact hu

/-- A text that ends in a run leaves nothing unfinished. -/
theorem push_of_endsRun (hT : T.Inked) {t : Text} (ht : T.EndsRun t) :
    push T {} ⟨n, t, none⟩ = ⟨T.sentences n t, none, true⟩ := by
  obtain ⟨front, a, hsegments, -⟩ := ht.segments_append_closers hT (k := []) (by simp)
  rw [push_of_not_justClosed rfl, if_neg ht.ne_nil, pushBody_eq hT (quiet_nil T), taken,
    foldl_finishWith_of_none hT rfl fun _ ha => Terminators.ends_of_mem_segments ha,
    ht.sentences_eq, hsegments]
  simp [merge, Text.trimStart]

theorem addClosers_of_endsRun (hT : T.Inked) {t k : Text} (ht : T.EndsRun t)
    (hk : ∀ c ∈ k, isCloser c = true) : addClosers k ⟨T.sentences n t, none, true⟩ =
      ⟨T.sentences n (t ++ k), none, true⟩ := by
  obtain ⟨front, a, hsegments, happend⟩ := ht.segments_append_closers hT hk
  have ha : T.Ends a := Terminators.ends_of_mem_segments (t := t) (by simp [hsegments])
  have hopened : Sentence.opened n (a ++ k) =
      { Sentence.opened n a with content := (Sentence.opened n a).content ++ k } := by
    simp [Sentence.opened, Text.trimStart_append, (ha.trimStart hT).ne_nil]
  rw [ht.sentences_eq, (ht.append_closers hk).sentences_eq, hsegments, happend, addClosers]
  simp [modifyLast_append, hopened]

end Session

variable {T : Terminators}

theorem extract_single (hT : T.Inked) (n : ℕ) (t : Text) :
    extract T [⟨n, t, none⟩] = T.sentences n t := by
  by_cases ht : t = []
  · subst ht
    simp [extract, Session.push, Session.flush, Session.close]
  · rw [extract, List.foldl_cons, List.foldl_nil, Session.push_of_not_justClosed rfl, if_neg ht,
      Session.pushBody_eq hT (Session.quiet_nil T), Session.flush,
      Session.finished_close_taken hT rfl, List.nil_append]

/-- Behind a run only closers still go to the sentence that has ended. -/
theorem extract_behind_run (hT : T.Inked) {t : Text} (ht : T.EndsRun t) (v : Text) (n : ℕ) :
    extract T [⟨n, t, none⟩, ⟨n, v, none⟩] =
      T.sentences n (t ++ v.takeWhile isCloser) ++ T.sentences n (v.dropWhile isCloser) := by
  have hclosers : ∀ c ∈ v.takeWhile isCloser, isCloser c = true := fun _ hc =>
    List.mem_takeWhile_imp hc
  rw [extract, List.foldl_cons, List.foldl_cons, List.foldl_nil, Session.push_of_endsRun hT ht,
    Session.push_of_justClosed rfl]
  dsimp only
  rw [Session.addClosers_of_endsRun hT ht hclosers, Session.flush]
  split
  · rename_i hrest
    rw [Session.close_of_none rfl, hrest, Terminators.sentences_nil, List.append_nil]
  · rw [Session.pushBody_eq hT (by simp [Session.Quiet]), Session.finished_close_taken hT rfl]

/-- A run of terminators that is cut by markup closes a sentence at the cut. Two spans whose texts
meet between two terminators say what the first says with the closers in front of the second, and
behind that what is left of the second says on its own. That is what one span with the whole text
says just when a sentence of the whole ends there; it does not when neither terminator is a
closer. -/
theorem extract_run_parts (hT : T.Inked) {u v : Text} {c d : Char} (hc : T.contains c = true)
    (hd : T.contains d = true) (n : ℕ) :
    let first := u ++ [c]
    let second := d :: v
    let closers := second.takeWhile isCloser
    let rest := second.dropWhile isCloser
    extract T [⟨n, first, none⟩, ⟨n, second, none⟩] =
        extract T [⟨n, first ++ closers, none⟩] ++ extract T [⟨n, rest, none⟩] ∧
      (extract T [⟨n, first, none⟩, ⟨n, second, none⟩] = extract T [⟨n, first ++ second, none⟩] ↔
        T.EndsBehind (first ++ closers) rest) ∧
      (isCloser c = false → isCloser d = false →
        extract T [⟨n, first, none⟩, ⟨n, second, none⟩] ≠
          extract T [⟨n, first ++ second, none⟩]) := by
  intro first second closers rest
  have hrun : T.EndsRun first := ⟨u, c, [], rfl, hc, by simp⟩
  have hclosed : T.EndsRun (first ++ closers) :=
    hrun.append_closers fun _ hcloser => List.mem_takeWhile_imp hcloser
  have hparts : first ++ second = first ++ closers ++ rest := by
    rw [List.append_assoc first, List.takeWhile_append_dropWhile]
  have hiff : extract T [⟨n, first, none⟩, ⟨n, second, none⟩] =
      extract T [⟨n, first ++ second, none⟩] ↔ T.EndsBehind (first ++ closers) rest := by
    rw [extract_behind_run hT hrun, extract_single hT, hparts]
    exact Terminators.sentences_append_iff hT hclosed n
  refine ⟨?_, hiff, fun hcloser hcloser' => ?_⟩
  · rw [extract_behind_run hT hrun, extract_single hT, extract_single hT]
  · have hnone : closers = [] := by simp [closers, second, hcloser']
    have hall : rest = d :: v := by simp [rest, second, hcloser']
    rw [ne_eq, hiff, hnone, hall, List.append_nil]
    exact Terminators.not_endsBehind_of_run hc hd hcloser

/-- A terminator that is a closer as well goes on with the run before it. -/
theorem extract_run_parts_of_closer :
    let T := Terminators.withExtra "）".toList
    T.Inked ∧ T.contains '.' = true ∧ T.contains '）' = true ∧
      extract T [⟨1, "Wow.".toList, none⟩, ⟨1, "）So".toList, none⟩] =
        extract T [⟨1, "Wow.）".toList, none⟩] ++ extract T [⟨1, "So".toList, none⟩] ∧
      (extract T [⟨1, "Wow.".toList, none⟩, ⟨1, "）So".toList, none⟩] =
        extract T [⟨1, "Wow.）So".toList, none⟩] ↔ T.EndsBehind "Wow.）".toList "So".toList) ∧
      (isCloser '.' = false → isCloser '）' = false →
        extract T [⟨1, "Wow.".toList, none⟩, ⟨1, "）So".toList, none⟩] ≠
          extract T [⟨1, "Wow.）So".toList, none⟩]) := by
  intro T
  have hT : T.Inked := Terminators.inked_iff.mpr (by decide)
  have hstop : T.contains '.' = true := by decide
  have hbracket : T.contains '）' = true := by decide
  exact ⟨hT, hstop, hbracket,
    extract_run_parts (u := "Wow".toList) (v := "So".toList) hT hstop hbracket 1⟩

/-- A run of two terminators that is cut between them gives two sentences. -/
theorem run_in_two_spans_ends_twice :
    ¬∀ (T : Terminators), T.Inked → ∀ (u v : Text) (c d : Char), T.contains c = true →
      T.contains d = true → ∀ n, extract T [⟨n, u ++ [c], none⟩, ⟨n, d :: v, none⟩] =
        extract T [⟨n, u ++ c :: d :: v, none⟩] := by
  intro h
  let T := Terminators.withExtra "?!".toList
  have hT : T.Inked := Terminators.inked_iff.mpr (by decide)
  have htwo : extract T [⟨1, "Really".toList ++ ['?'], none⟩, ⟨1, ['!'], none⟩] =
      [{ content := "Really?".toList, line := 1 }, { content := "!".toList, line := 1 }] := by cbv
  have hone : extract T [⟨1, "Really".toList ++ ['?', '!'], none⟩] =
      [{ content := "Really?!".toList, line := 1 }] := by cbv
  have hsame := h T hT "Really".toList [] '?' '!' (by decide) (by decide) 1
  rw [htwo, hone] at hsame
  simp at hsame

end ProseLint
