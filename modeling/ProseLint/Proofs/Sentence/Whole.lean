import ProseLint.Proofs.Sentence.Ends
import ProseLint.Proofs.Sentence.Reachable

/-!
# Whole sentences

When no terminator is a blank, a finished sentence holds one sentence end, at its very end: the
segment that finishes it brings the only one, and closers that come later move it along. In the
sentence that is still unfinished when a session is flushed no sentence ends at all. So a sentence
that has been extracted is one sentence again when it is extracted from its own text.
-/
namespace ProseLint

namespace Session

variable {T : Terminators} {s : Session} {n : ℕ}

/-- A segment goes to the end of the unfinished sentence and finishes it. -/
theorem finishWith_of_some {u : Sentence} (hT : T.Inked) (hs : s.Quiet T)
    (hu : s.unfinished = some u) {a : Text} (ha : T.Ends a) : T.Ends (u.content ++ a) ∧
      finishWith n s a = { s with
        finished := s.finished ++ [{ u with content := u.content ++ a }], unfinished := none } := by
  have hends : T.Ends (u.content ++ a) := ha.append_left (hs u hu)
  have htrim := (hends.endsInInk hT).trimEnd_eq
  exact ⟨hends, by simp [finishWith, merge, close, hu, ha.ne_nil, htrim]⟩

/-- A segment with no sentence to finish is a sentence of its own. -/
theorem finishWith_of_none (hT : T.Inked) (hu : s.unfinished = none) {a : Text} (ha : T.Ends a) :
    finishWith n s a =
      { s with finished := s.finished ++ [{ content := Text.trimStart a, line := n }] } := by
  have hends := ha.trimStart hT
  have htrim := (hends.endsInInk hT).trimEnd_eq
  obtain ⟨finished, unfinished, closed⟩ := s
  obtain rfl : unfinished = none := hu
  simp [finishWith, merge, close, hends.ne_nil, htrim]

theorem finished_merge (s : Session) (t : Text) (n : ℕ) :
    (s.merge t n).1.finished = s.finished := by
  unfold merge
  cases s.unfinished <;> dsimp only <;> split <;> rfl

/-- Each finished sentence has its first sentence end at its very end. -/
def Whole (T : Terminators) (s : Session) : Prop := ∀ x ∈ s.finished, T.Ends x.content

theorem Whole.finishWith (hT : T.Inked) (hs : s.Quiet T) (h : s.Whole T) {a : Text}
    (ha : T.Ends a) : (finishWith n s a).Whole T := by
  intro x hx
  cases hu : s.unfinished with
  | some u =>
    obtain ⟨hends, hfinish⟩ := finishWith_of_some (n := n) hT hs hu ha
    rw [hfinish] at hx
    rcases List.mem_append.mp hx with hx | hx
    · exact h x hx
    · obtain rfl := List.mem_singleton.mp hx
      exact hends
  | none =>
    rw [finishWith_of_none hT hu ha] at hx
    rcases List.mem_append.mp hx with hx | hx
    · exact h x hx
    · obtain rfl := List.mem_singleton.mp hx
      exact ha.trimStart hT

theorem Whole.foldl (hT : T.Inked) (hs : s.Quiet T) (h : s.Whole T) {segments : List Text}
    (hsegments : ∀ a ∈ segments, T.Ends a) :
    (segments.foldl (Session.finishWith n) s).Whole T := by
  induction segments generalizing s with
  | nil => exact h
  | cons a segments ih =>
    obtain ⟨ha, hsegments⟩ := List.forall_mem_cons.mp hsegments
    exact ih (.close _) (h.finishWith hT hs ha) hsegments

theorem Whole.taken (hT : T.Inked) (hs : s.Quiet T) (h : s.Whole T) (t : Text) :
    (s.taken T n t).Whole T := by
  intro x hx
  rw [Session.taken, finished_merge] at hx
  exact h.foldl hT hs (fun _ ha => Terminators.ends_of_mem_segments ha) x hx

theorem Whole.modifyLast (h : s.Whole T) {f : Sentence → Sentence}
    (hf : ∀ x, T.Ends x.content → T.Ends (f x).content) :
    Whole T { s with finished := modifyLast f s.finished } := by
  intro x hx
  rcases List.eq_nil_or_concat' s.finished with hnil | ⟨front, y, hfinished⟩
  · simp [hnil, Session.modifyLast] at hx
  · rw [Whole, hfinished, List.forall_mem_append, List.forall_mem_singleton] at h
    rw [hfinished, modifyLast_append] at hx
    rcases List.mem_append.mp hx with hx | hx
    · exact h.1 x hx
    · obtain rfl := List.mem_singleton.mp hx
      exact hf y h.2

theorem Whole.addClosers (h : s.Whole T) {closers : Text} (hc : ∀ c ∈ closers, isCloser c = true) :
    (s.addClosers closers).Whole T :=
  h.modifyLast fun _ hx => hx.append_closers hc

/-- A link changes no text. -/
theorem Whole.attach (h : s.Whole T) (link : Option Text) (who : Receiver) :
    (attach link who s).Whole T := by
  cases link with
  | none => exact h
  | some url =>
    cases who with
    | nobody => exact h
    | unfinished => exact h
    | lastFinished => exact h.modifyLast fun _ hx => hx

theorem Whole.pushBody (hT : T.Inked) (hs : s.Quiet T) (h : s.Whole T) (t : Text)
    (link : Option Text) : (s.pushBody T n t link).Whole T := by
  obtain ⟨who, hbody⟩ := pushBody_eq_attach (n := n) hT hs t link
  rw [hbody]
  exact (h.taken hT hs t).attach link who

theorem Whole.push (hT : T.Inked) (hs : s.Quiet T) (h : s.Whole T) (span : Span) :
    (push T s span).Whole T := by
  cases hclosed : s.justClosed with
  | false =>
    rw [push_of_not_justClosed hclosed]
    split
    · exact h
    · exact h.pushBody hT hs _ _
  | true =>
    have hclosers : (s.addClosers (span.text.takeWhile isCloser)).Whole T :=
      h.addClosers fun _ hc => List.mem_takeWhile_imp hc
    have hquiet : (s.addClosers (span.text.takeWhile isCloser)).Quiet T := hs
    rw [push_of_justClosed hclosed]
    split
    · exact hclosers
    · exact hclosers.pushBody hT hquiet _ _

theorem Reachable.whole (hT : T.Inked) (h : s.Reachable T) : s.Whole T := by
  induction h with
  | start => simp [Whole]
  | push reached span ih => exact ih.push hT (reached.quiet hT) span
  | flush => simp [Whole, Session.flush]

/-- A flush trims the unfinished sentence, which keeps its first character. -/
theorem close_of_some {u : Sentence} (hs : s.Opens) (hu : s.unfinished = some u) :
    s.close.finished = s.finished ++ [{ u with content := Text.trimEnd u.content }] := by
  obtain ⟨c, hhead, hc⟩ := hs u hu
  have hne : Text.trimEnd u.content ≠ [] := by
    intro hnil
    have := Text.head?_trimEnd hhead hc
    simp [hnil] at this
  simp [close, hu, hne]

theorem close_of_none (hu : s.unfinished = none) : s.close = s := by simp [close, hu]

end Session

variable {T : Terminators} {spans : List Span}

/-- A text that begins and ends with ink, and in which no sentence ends too early, is one sentence
when it is extracted as one span. -/
theorem extract_of_ends {t : Text} (hhead : Text.trimStart t = t) (hlast : Text.trimEnd t = t)
    (hne : t ≠ []) (ht : T.Ends t ∨ T.cut t = none) (n : ℕ) (link : Option Text) :
    extract T [⟨n, t, link⟩] = [{ content := t, line := n, links := link.toList }] := by
  have hnil : Text.trimStart [] = [] := rfl
  rcases ht with hends | hcut
  · cases link <;> simp [extract, Session.push, Session.pushBody, Session.closeSegments,
      Session.merge, Session.close, Session.attach, Session.modifyLast, Session.flush,
      hends.segments_eq, hne, hhead, hlast, hnil]
  · have hterminated : T.firstEnd t = none := Terminators.firstEnd_eq_none_iff.mpr hcut
    cases link <;> simp [extract, Session.push, Session.pushBody, Session.closeSegments,
      Session.merge, Session.close, Session.attach, Session.flush, Session.isTerminated,
      Terminators.segments_of_cut_none hcut, hterminated, hne, hhead, hlast]

/-- What a flush hands over: the finished sentences, which are ended, and behind them what was
unfinished, in which no sentence ends. -/
theorem extract_cases (hT : T.Inked) (spans : List Span) :
    ∃ finished : List Sentence, (∀ x ∈ finished, T.Ends x.content) ∧
      ((spans.foldl (Session.push T) {}).unfinished = none ∧ extract T spans = finished ∨
        ∃ x, (spans.foldl (Session.push T) {}).unfinished ≠ none ∧ T.cut x.content = none ∧
          extract T spans = finished ++ [x]) := by
  have hs := Session.reachable_foldl T spans
  refine ⟨(spans.foldl (Session.push T) {}).finished, hs.whole hT, ?_⟩
  rw [extract, Session.flush]
  generalize spans.foldl (Session.push T) {} = s at hs ⊢
  cases hu : s.unfinished with
  | none => exact .inl ⟨rfl, by rw [Session.close_of_none hu]⟩
  | some u =>
    refine .inr ⟨{ u with content := Text.trimEnd u.content }, by simp, ?_,
      Session.close_of_some hs.opens hu⟩
    exact Terminators.cut_trimEnd_eq_none hT (hs.quiet hT u hu)

theorem ends_or_cut_of_mem_extract (hT : T.Inked) {x : Sentence} (hx : x ∈ extract T spans) :
    T.Ends x.content ∨ T.cut x.content = none := by
  obtain ⟨finished, hends, ⟨-, heq⟩ | ⟨y, -, hcut, heq⟩⟩ := extract_cases hT spans
  · exact .inl (hends x (heq ▸ hx))
  · rw [heq] at hx
    rcases List.mem_append.mp hx with hx | hx
    · exact .inl (hends x hx)
    · obtain rfl := List.mem_singleton.mp hx
      exact .inr hcut

theorem ink_around_of_mem_extract (hT : T.Inked) {x : Sentence} (hx : x ∈ extract T spans) :
    (∃ c ∈ x.content.head?, isBlank c = false) ∧ Text.EndsInInk x.content := by
  obtain ⟨_, -, -, -, hall⟩ := (covered_extract_lined T spans).exists_gaps hT
  obtain ⟨i, hi⟩ := List.mem_iff_getElem?.mp hx
  obtain ⟨hends, y, -, hy, hhead, -⟩ := hall i x.body (by simp [hi])
  exact ⟨⟨y.1, hhead, hy⟩, hends⟩

/-- No sentence end is missed or invented. In each sentence that is extracted, but for the last, the
first sentence end is the very end, and in the last one it is, or there is none: just when a
sentence was still unfinished. So no sentence end is inside of a sentence, and each sentence is
extracted again from its own text. -/
theorem extract_ends_once (hT : T.Inked) (spans : List Span) :
    (∀ x ∈ (extract T spans).dropLast, T.firstEnd x.content = some (Text.byteLength x.content)) ∧
    (∀ x ∈ (extract T spans).getLast?,
      T.firstEnd x.content = some (Text.byteLength x.content) ∨ T.firstEnd x.content = none) ∧
    ((∃ x ∈ (extract T spans).getLast?, T.firstEnd x.content = none) ↔
      (spans.foldl (Session.push T) {}).unfinished ≠ none) ∧
    ∀ x ∈ extract T spans,
      (∀ e ∈ T.firstEnd x.content, e = Text.byteLength x.content) ∧
      ∀ n link, extract T [⟨n, x.content, link⟩] =
        [{ content := x.content, line := n, links := link.toList }] := by
  simp only [Terminators.firstEnd_eq_byteLength_iff, Terminators.firstEnd_eq_none_iff]
  refine ⟨?_, fun x hx => ends_or_cut_of_mem_extract hT (List.mem_of_mem_getLast? hx), ?_,
    fun x hx => ⟨fun e he => ?_, fun n link => ?_⟩⟩
  · obtain ⟨finished, hends, ⟨-, heq⟩ | ⟨y, -, -, heq⟩⟩ := extract_cases hT spans
    · exact fun x hx => hends x (heq ▸ List.mem_of_mem_dropLast hx)
    · rw [heq, List.dropLast_concat]
      exact hends
  · obtain ⟨finished, hends, ⟨hnone, heq⟩ | ⟨y, hsome, hcut, heq⟩⟩ := extract_cases hT spans
    · refine ⟨?_, fun h => absurd hnone h⟩
      rintro ⟨x, hx, hcut⟩
      have hx := hends x (heq ▸ List.mem_of_mem_getLast? hx)
      exact absurd (hx.symm.trans hcut) (by simp)
    · exact ⟨fun _ => hsome, fun _ => ⟨y, by simp [heq], hcut⟩⟩
  · rcases ends_or_cut_of_mem_extract hT hx with hends | hcut
    · rw [Terminators.firstEnd_eq_byteLength_iff.mpr hends] at he
      exact (Option.some.inj he).symm
    · rw [Terminators.firstEnd_eq_none_iff.mpr hcut] at he
      simp at he
  · obtain ⟨⟨c, hhead, hc⟩, hlast⟩ := ink_around_of_mem_extract hT hx
    have hne : x.content ≠ [] := by
      rintro hnil
      simp [hnil] at hhead
    exact extract_of_ends (Text.trimStart_of_head? hhead hc) hlast.trimEnd_eq hne
      (ends_or_cut_of_mem_extract hT hx) n link

/-- A closer lengthens a finished sentence, and a full stop inside of a number ends none. -/
theorem extract_ends_once_of_closer :
    let spans : List Span := [⟨1, " It is «".toList, none⟩, ⟨1, "so.".toList, some "u".toList⟩,
      ⟨2, "”".toList, none⟩, ⟨2, " About 3.14 ".toList, none⟩]
    Terminators.fullStop.Inked ∧
    (extract .fullStop spans).map (·.content) = ["It is «so.”".toList, "About 3.14".toList] ∧
    (∀ x ∈ (extract .fullStop spans).dropLast,
      Terminators.fullStop.firstEnd x.content = some (Text.byteLength x.content)) ∧
    (∀ x ∈ (extract .fullStop spans).getLast?,
      Terminators.fullStop.firstEnd x.content = some (Text.byteLength x.content) ∨
        Terminators.fullStop.firstEnd x.content = none) ∧
    ((∃ x ∈ (extract .fullStop spans).getLast?, Terminators.fullStop.firstEnd x.content = none) ↔
      (spans.foldl (Session.push .fullStop) {}).unfinished ≠ none) ∧
    ∀ x ∈ extract .fullStop spans,
      (∀ e ∈ Terminators.fullStop.firstEnd x.content, e = Text.byteLength x.content) ∧
      ∀ n link, extract .fullStop [⟨n, x.content, link⟩] =
        [{ content := x.content, line := n, links := link.toList }] := by
  intro spans
  have hcontents : (extract .fullStop spans).map (·.content) =
      ["It is «so.”".toList, "About 3.14".toList] := by cbv
  exact ⟨Terminators.inked_fullStop, hcontents,
    extract_ends_once Terminators.inked_fullStop spans⟩

end ProseLint
