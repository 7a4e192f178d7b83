import Mathlib.Data.List.GetD
import ProseLint.Proofs.Sentence.Links
import ProseLint.Proofs.Sentence.Whole

/-!
# Who receives the text of a span

The sentences of a session are numbered in their order, the unfinished one last; a number stays with
its sentence until the next flush. A sentence has received text when it has grown, or when it has
been finished, for a sentence end that trimming takes away was received all the same. The link of a
span goes to the sentence that has received the last of its text, unless the text goes, but for
blanks, to the sentence that has just been finished: then the link goes to none.
-/
namespace ProseLint.Session

variable {T : Terminators} {s s' s'' : Session} {n : ℕ} {t : Text} {url : Text}

/-- The links of the sentence with the number `i`. -/
def linksAt (s : Session) (i : ℕ) : List Text := (s.all.map (·.links)).getD i []

/-- How long the sentence with the number `i` is; one that is not there has no length. -/
def lengthAt (s : Session) (i : ℕ) : ℕ := (s.all.map (·.content.length)).getD i 0

/-- On the way from `s` to `s'` the sentence with the number `i` has received text. -/
def Received (s s' : Session) (i : ℕ) : Prop :=
  s.lengthAt i < s'.lengthAt i ∨ s.finished.length ≤ i ∧ i < s'.finished.length

/-- The link has been added to the sentence that has received the last of the text, and to no other;
if none has received text, the link has not been added. -/
def Credits (s s' : Session) (url : Text) : Prop :=
  ((∃ i, s.Received s' i) → ∃ i, s.Received s' i ∧ (∀ j, s.Received s' j → j ≤ i) ∧
    s'.linksAt i = s.linksAt i ++ [url] ∧ ∀ j, j ≠ i → s'.linksAt j = s.linksAt j) ∧
  ((∀ i, ¬s.Received s' i) → ∀ j, s'.linksAt j = s.linksAt j)

theorem getD_concat {α : Type} (l : List α) (a d : α) (i : ℕ) :
    (l ++ [a]).getD i d = if i = l.length then a else l.getD i d := by
  rcases lt_trichotomy i l.length with hlt | rfl | hgt
  · rw [List.getD_append _ _ _ _ hlt, if_neg (by omega)]
  · simp
  · rw [List.getD_eq_default _ _ (by simp; omega), List.getD_eq_default _ _ (by omega),
      if_neg (by omega)]

theorem Received.lt_length {i : ℕ} (h : s.Received s' i) : i < s'.all.length := by
  rcases h with hlonger | ⟨-, hlt⟩
  · by_contra hle
    have hzero : s'.lengthAt i = 0 := List.getD_eq_default _ _ (by simpa using hle)
    omega
  · simp only [all, List.length_append]
    omega

/-- Text has been taken in and sentences have been finished: links have not been touched, and new
sentences have none. -/
structure Grows (s s' : Session) : Prop where
  links : ∃ k, s'.all.map (·.links) = s.all.map (·.links) ++ List.replicate k []
  finished : s.finished.length ≤ s'.finished.length

theorem Grows.refl (s : Session) : s.Grows s := ⟨⟨0, by simp⟩, le_rfl⟩

theorem Grows.trans (h : s.Grows s') (h' : s'.Grows s'') : s.Grows s'' := by
  obtain ⟨k, hk⟩ := h.links
  obtain ⟨k', hk'⟩ := h'.links
  refine ⟨⟨k + k', ?_⟩, h.finished.trans h'.finished⟩
  rw [hk', hk, List.append_assoc, List.replicate_append_replicate]

theorem Grows.linksAt_eq (h : s.Grows s') (i : ℕ) : s'.linksAt i = s.linksAt i := by
  obtain ⟨k, hk⟩ := h.links
  rw [linksAt, linksAt, hk]
  by_cases hi : i < (s.all.map (·.links)).length
  · rw [List.getD_append _ _ _ _ hi]
  · rw [List.getD_append_right _ _ _ _ (by omega), List.getD_eq_default (s.all.map _) _ (by omega)]
    by_cases hk' : i - (s.all.map (·.links)).length < k
    · exact List.getD_replicate [] hk'
    · exact List.getD_eq_default _ _ (by simpa using hk')

/-- An added fragment lengthens the unfinished sentence, which may be new. -/
theorem merge_eq_true (hs : s.Opens) (h : s.merge t n = (s', true)) :
    s'.finished = s.finished ∧ s'.unfinished ≠ none ∧ s'.Opens ∧ s.Grows s' ∧
      s.lengthAt s.finished.length < s'.lengthAt s.finished.length := by
  unfold merge at h
  cases hu : s.unfinished with
  | some u =>
    simp only [hu] at h
    split at h
    · simp at h
    · rename_i hne
      obtain rfl := congrArg Prod.fst h
      obtain ⟨c, hhead, hc⟩ := hs u hu
      have hlonger : 0 < t.length := List.length_pos_iff.mpr (by simpa using hne)
      refine ⟨rfl, by simp, ?_, ⟨⟨0, by simp [all, hu]⟩, le_rfl⟩, ?_⟩
      · intro v hv
        obtain rfl := Option.some.inj hv
        exact ⟨c, by simp [List.head?_append, Option.mem_def.mp hhead], hc⟩
      · simp [lengthAt, all, hu, hlonger]
  | none =>
    simp only [hu] at h
    split at h
    · simp at h
    · rename_i hne
      obtain rfl := congrArg Prod.fst h
      have hbody : Text.trimStart t ≠ [] := by simpa using hne
      refine ⟨rfl, by simp, ?_, ⟨⟨1, by simp [all, hu]⟩, le_rfl⟩, ?_⟩
      · intro v hv
        obtain rfl := Option.some.inj hv
        obtain ⟨c, rest, hcons⟩ := List.exists_cons_of_ne_nil hbody
        have hhead : (Text.trimStart t).head? = some c := by rw [hcons]; rfl
        exact ⟨c, hhead, Text.isBlank_of_head?_trimStart hhead⟩
      · simpa [lengthAt, all, hu] using List.length_pos_iff.mpr hbody

theorem close_grows (hs : s.Opens) (hu : s.unfinished ≠ none) : s.close.unfinished = none ∧
    s.close.finished.length = s.finished.length + 1 ∧ s.Grows s.close := by
  obtain ⟨u, hu⟩ := Option.ne_none_iff_exists'.mp hu
  have hfinished := close_of_some hs hu
  refine ⟨unfinished_close s, by simp [hfinished], ⟨0, ?_⟩, by simp [hfinished]⟩
  simp [all, unfinished_close, hfinished, hu]

theorem opens_of_none (hu : s.unfinished = none) : s.Opens := by
  intro u hu'
  simp [hu] at hu'

/-- Segments that are not blank finish sentences. -/
theorem closeSegments_cases (hs : s.Opens) (segments : List Text) (who : Receiver) :
    (closeSegments n s who segments = (s, who) ∧ ∀ c ∈ segments.flatten, isBlank c = true) ∨
    ∃ s', closeSegments n s who segments = (s', .lastFinished) ∧ s'.unfinished = none ∧
      s.finished.length < s'.finished.length ∧ s.Grows s' := by
  induction segments generalizing s who with
  | nil => exact .inl ⟨rfl, by simp⟩
  | cons a segments ih =>
    rw [closeSegments]
    cases hmerge : s.merge a n with
    | mk s₁ added =>
      cases added with
      | true =>
        obtain ⟨hfinished, hopen, hopens, hgrows, -⟩ := merge_eq_true hs hmerge
        obtain ⟨hnone, hlength, hclose⟩ := close_grows hopens hopen
        rw [hfinished] at hlength
        have hgrown := hgrows.trans hclose
        right
        rcases ih (opens_of_none hnone) .lastFinished with ⟨heq, -⟩ | ⟨s', heq, hu, hlt, hlater⟩
        · exact ⟨s₁.close, heq, hnone, by omega, hgrown⟩
        · exact ⟨s', heq, hu, by omega, hgrown.trans hlater⟩
      | false =>
        obtain ⟨rfl, hcase⟩ := merge_eq_false hmerge
        have ha : ∀ c ∈ a, isBlank c = true := by
          rcases hcase with rfl | ⟨-, hblank⟩
          · simp
          · exact hblank
        rcases ih hs who with ⟨heq, hblank⟩ | hclosed
        · refine .inl ⟨heq, fun c hc => ?_⟩
          rw [List.flatten_cons] at hc
          exact (List.mem_append.mp hc).elim (ha c) (hblank c)
        · exact .inr hclosed

theorem Grows.withClosed (h : s.Grows s') (closed : Bool) :
    s.Grows { s' with justClosed := closed } := ⟨h.links, h.finished⟩

/-- Whoever an added fragment goes to is the last of all sentences, finished or not. -/
theorem received_of_merge (hgrows : s.Grows s') (hs : s'.Opens)
    (hlength : s.lengthAt s'.finished.length ≤ s'.lengthAt s'.finished.length)
    (h : s'.merge t n = (s'', true)) :
    (s.Grows s'' ∧ s''.Receives .unfinished ∧ s.Received s'' (s''.all.length - 1)) ∧
      s.Grows s''.close ∧ s''.close.Receives .lastFinished ∧
        s.Received s''.close (s''.close.all.length - 1) := by
  obtain ⟨hfinished, hopen, hopens, hmerge, hlonger⟩ := merge_eq_true hs h
  obtain ⟨hnone, hclosed, hclose⟩ := close_grows hopens hopen
  have hlast : s''.all.length - 1 = s'.finished.length := by
    obtain ⟨u, hu⟩ := Option.ne_none_iff_exists'.mp hopen
    simp [all, hu, hfinished]
  have hlast' : s''.close.all.length - 1 = s'.finished.length := by
    simp [all, hnone, hclosed, hfinished]
  have hbefore := hgrows.finished
  rw [hfinished] at hclosed
  refine ⟨⟨hgrows.trans hmerge, hopen, .inl (by rw [hlast]; omega)⟩,
    hgrows.trans (hmerge.trans hclose), ⟨hnone, ?_⟩, .inr (by rw [hlast']; omega)⟩
  rw [← List.length_pos_iff]
  omega

/-- Taking in the text of a span ends with its link, and its receiver has received text; with no
receiver the text is blank and nothing has changed. -/
theorem pushBody_cases (hs : s.Opens) (t : Text) (link : Option Text) :
    ∃ s' who, s.pushBody T n t link = attach link who s' ∧ s.Grows s' ∧
      (who = .nobody → s'.all = s.all ∧ s'.finished = s.finished ∧ ∀ c ∈ t, isBlank c = true) ∧
      (who ≠ .nobody → s'.Receives who ∧ s.Received s' (s'.all.length - 1)) := by
  have hflatten := (T.segments_spec t).1
  rw [pushBody]
  generalize T.segments t = parts at hflatten ⊢
  obtain ⟨segments, rest⟩ := parts
  dsimp only at hflatten ⊢
  subst hflatten
  rcases closeSegments_cases (n := n) hs segments .nobody with
    ⟨heq, hblank⟩ | ⟨s₁, heq, hnone, hlt, hgrows⟩
  · rw [heq]
    cases hmerge : s.merge rest n with
    | mk s₂ added =>
      cases added with
      | false =>
        obtain ⟨rfl, hcase⟩ := merge_eq_false hmerge
        refine ⟨_, .nobody, rfl, (Grows.refl s₂).withClosed _, fun _ => ⟨rfl, rfl, ?_⟩, by simp⟩
        intro c hc
        rcases List.mem_append.mp hc with hc | hc
        · exact hblank c hc
        · rcases hcase with rfl | ⟨-, hrest⟩
          · simp at hc
          · exact hrest c hc
      | true =>
        obtain ⟨⟨hgrows, hreceives, hreceived⟩, hgrows', hreceives', hreceived'⟩ :=
          received_of_merge (.refl s) hs le_rfl hmerge
        dsimp only
        split
        · exact ⟨_, _, rfl, hgrows'.withClosed _, by simp, fun _ => ⟨hreceives', hreceived'⟩⟩
        · exact ⟨_, _, rfl, hgrows.withClosed _, by simp, fun _ => ⟨hreceives, hreceived⟩⟩
  · rw [heq]
    cases hmerge : s₁.merge rest n with
    | mk s₂ added =>
      cases added with
      | false =>
        obtain ⟨rfl, -⟩ := merge_eq_false hmerge
        have hlast : s₂.all.length - 1 < s₂.finished.length := by
          simp only [all, hnone, Option.toList_none, List.append_nil]
          omega
        refine ⟨_, _, rfl, hgrows.withClosed _, by simp, fun _ => ⟨⟨hnone, ?_⟩, .inr ⟨?_, hlast⟩⟩⟩
        · rw [← List.length_pos_iff]
          exact Nat.zero_lt_of_lt hlt
        · simp only [all, hnone, Option.toList_none, List.append_nil]
          omega
      | true =>
        -- the fragment begins a sentence that was not there before
        have hnew : s.lengthAt s₁.finished.length = 0 := by
          refine List.getD_eq_default _ _ ?_
          cases hu : s.unfinished <;> simp [all, hu] <;> omega
        obtain ⟨⟨hgrows, hreceives, hreceived⟩, hgrows', hreceives', hreceived'⟩ :=
          received_of_merge hgrows (opens_of_none hnone) (by omega) hmerge
        dsimp only
        split
        · exact ⟨_, _, rfl, hgrows'.withClosed _, by simp, fun _ => ⟨hreceives', hreceived'⟩⟩
        · exact ⟨_, _, rfl, hgrows.withClosed _, by simp, fun _ => ⟨hreceives, hreceived⟩⟩

theorem lengthAt_attach {who : Receiver} (h : s.Receives who) (i : ℕ) :
    (attach (some url) who s).lengthAt i = s.lengthAt i := by
  obtain ⟨front, f, hall, hattach⟩ := exists_all_attach h url
  rw [lengthAt, lengthAt, hall, hattach]
  simp

theorem length_finished_attach (who : Receiver) (link : Option Text) (s : Session) :
    (attach link who s).finished.length = s.finished.length := by
  cases link <;> cases who <;> simp [attach, modifyLast]

theorem received_attach {who : Receiver} (h : s'.Receives who) {i : ℕ} :
    s.Received (attach (some url) who s') i ↔ s.Received s' i := by
  rw [Received, Received, lengthAt_attach h, length_finished_attach]

/-- A link that goes to the last of all sentences goes to the one that received the last text, when
that sentence has received any. -/
theorem credits_attach {who : Receiver} (hgrows : s.Grows s') (hwho : s'.Receives who)
    (hlast : s.Received s' (s'.all.length - 1)) : s.Credits (attach (some url) who s') url := by
  obtain ⟨front, f, hall, hattach⟩ := exists_all_attach hwho url
  have hlength : s'.all.length = front.length + 1 := by simp [hall]
  have hlinks : ∀ i, (attach (some url) who s').linksAt i =
      if i = front.length then s.linksAt i ++ [url] else s.linksAt i := by
    intro i
    rw [← hgrows.linksAt_eq, linksAt, linksAt, hall, hattach]
    simp only [List.map_append, List.map_singleton, getD_concat, List.length_map]
    split <;> rfl
  rw [hlength, Nat.add_sub_cancel] at hlast
  have hlast' : s.Received (attach (some url) who s') front.length :=
    (received_attach hwho).mpr hlast
  refine ⟨fun _ => ⟨front.length, hlast', ?_, ?_, ?_⟩, fun hnone => absurd hlast' (hnone _)⟩
  · intro j hj
    have := ((received_attach hwho).mp hj).lt_length
    omega
  · rw [hlinks, if_pos rfl]
  · intro j hj
    rw [hlinks, if_neg hj]

/-- Where no text has been received no link is due. -/
theorem credits_of_same (hall : s'.all = s.all) (hfinished : s'.finished = s.finished) :
    s.Credits s' url := by
  have hnone : ∀ i, ¬s.Received s' i := by
    intro i
    simp only [Received, lengthAt, hall, hfinished]
    omega
  refine ⟨fun ⟨i, hi⟩ => absurd hi (hnone i), fun _ j => ?_⟩
  rw [linksAt, linksAt, hall]

/-! ## Closers behind a sentence end -/

/-- The text goes, but for blanks, to the sentence that has just been finished: it is made of
closers, and of blanks behind them. -/
def OnlyCloses (s : Session) (t : Text) : Prop :=
  s.justClosed = true ∧ (∃ c ∈ t.head?, isCloser c = true) ∧
    ∀ c ∈ t.dropWhile isCloser, isBlank c = true

theorem takeWhile_eq_nil_of_head? {p : Char → Bool} (h : ¬∃ c ∈ t.head?, p c = true) :
    t.takeWhile p = [] := by
  cases t with
  | nil => rfl
  | cons c t => simpa using h

/-- Closers lengthen the sentence that has just been finished. -/
theorem addClosers_grows (hs : s.unfinished = none ∧ s.finished ≠ []) (k : Text) :
    s.Grows (s.addClosers k) ∧ (s.addClosers k).finished.length = s.finished.length ∧
      ∀ i, (s.addClosers k).lengthAt i =
        s.lengthAt i + if i + 1 = s.finished.length then k.length else 0 := by
  obtain ⟨hu, hne⟩ := hs
  obtain hnil | ⟨front, f, hfinished⟩ := List.eq_nil_or_concat' s.finished
  · exact absurd hnil hne
  have hadded : (s.addClosers k).finished = front ++ [{ f with content := f.content ++ k }] := by
    rw [addClosers, hfinished, modifyLast_append]
  have hlength : (s.addClosers k).finished.length = s.finished.length := by
    simp [hadded, hfinished]
  have hall : s.all = front ++ [f] := by simp [all, hu, hfinished]
  have hall' : (s.addClosers k).all = front ++ [{ f with content := f.content ++ k }] := by
    rw [all, hadded]
    simp [addClosers, hu]
  refine ⟨⟨⟨0, by simp [hall, hall']⟩, hlength.ge⟩, hlength, fun i => ?_⟩
  rw [lengthAt, lengthAt, hall, hall', hfinished]
  simp only [List.map_append, List.map_singleton, getD_concat, List.length_map, List.length_append,
    List.length_singleton, Nat.add_right_cancel_iff]
  split <;> simp

/-- What is received behind the closers is received on the whole way. -/
theorem Received.of_addClosers (hs : s.unfinished = none ∧ s.finished ≠ []) {k : Text} {i : ℕ}
    (h : (s.addClosers k).Received s' i) : s.Received s' i := by
  obtain ⟨-, hlength, hadded⟩ := addClosers_grows hs k
  rcases h with hlonger | hfinished
  · have := hadded i
    exact .inl (by omega)
  · rw [hlength] at hfinished
    exact .inr hfinished

theorem pushBody_of_blank (hu : s.unfinished = none) (ht : ∀ c ∈ t, isBlank c = true)
    (link : Option Text) : s.pushBody T n t link = { s with justClosed := false } := by
  have hmerge : ∀ u : Text, (∀ c ∈ u, isBlank c = true) → s.merge u n = (s, false) := by
    intro u hblank
    have hnil : Text.trimStart u = [] := List.dropWhile_eq_nil_iff.mpr hblank
    simp [merge, hu, hnil]
  have hclose : ∀ segments : List Text, (∀ c ∈ segments.flatten, isBlank c = true) →
      closeSegments n s .nobody segments = (s, .nobody) := by
    intro segments hblank
    induction segments with
    | nil => rfl
    | cons a segments ih =>
      rw [List.flatten_cons, List.forall_mem_append] at hblank
      rw [closeSegments, hmerge a hblank.1]
      exact ih hblank.2
  rw [← (T.segments_spec t).1, List.forall_mem_append] at ht
  rw [pushBody, hclose _ ht.1]
  dsimp only
  rw [hmerge _ ht.2]
  simp [attach]

/-- The sentence that has just been finished receives the closers, and the link is lost. -/
theorem links_of_onlyCloses (hs : s.unfinished = none ∧ s.finished ≠ []) {span : Span}
    (h : s.OnlyCloses span.text) : s.Received (push T s span) (s.finished.length - 1) ∧
      ∀ j, (push T s span).linksAt j = s.linksAt j := by
  obtain ⟨hclosed, ⟨c, hhead, hc⟩, hblank⟩ := h
  obtain ⟨hgrows, -, hlength⟩ := addClosers_grows hs (span.text.takeWhile isCloser)
  have hcloser : 0 < (span.text.takeWhile isCloser).length := by
    obtain ⟨rest, hcons⟩ := List.head?_eq_some_iff.mp hhead
    simp [hcons, hc]
  have hfinished := List.length_pos_iff.mpr hs.2
  have hreceived : s.lengthAt (s.finished.length - 1) <
      (s.addClosers (span.text.takeWhile isCloser)).lengthAt (s.finished.length - 1) := by
    rw [hlength, if_pos (by omega)]
    omega
  rw [push_of_justClosed hclosed]
  split
  · exact ⟨.inl hreceived, hgrows.linksAt_eq⟩
  · rw [pushBody_of_blank (s := s.addClosers _) hs.1 hblank]
    exact ⟨.inl hreceived, hgrows.linksAt_eq⟩

/-- Behind closers, if there are any, the rest of a span brings its link to the sentence that has
received the last of it; when the rest is blank there must be no closers. -/
theorem credits_pushBody (hs : s.Opens) {s₀ : Session} (hgrows : s₀.Grows s)
    (hreceived : ∀ {s' : Session} {i : ℕ}, s.Received s' i → s₀.Received s' i)
    (hblank : (∀ c ∈ t, isBlank c = true) → s.all = s₀.all ∧ s.finished = s₀.finished) :
    s₀.Credits (s.pushBody T n t (some url)) url ∧
      ((∃ c ∈ t, isBlank c = false) → ∃ i, s₀.Received (s.pushBody T n t (some url)) i) := by
  obtain ⟨s', who, heq, hgrows', hnobody, hwho⟩ :=
    pushBody_cases (T := T) (n := n) hs t (some url)
  rw [heq]
  by_cases hreceiver : who = .nobody
  · obtain ⟨hall, hfinished, ht⟩ := hnobody hreceiver
    obtain ⟨hall', hfinished'⟩ := hblank ht
    rw [hreceiver]
    refine ⟨credits_of_same (hall.trans hall') (hfinished.trans hfinished'), ?_⟩
    rintro ⟨c, hc, hink⟩
    simp [ht c hc] at hink
  · obtain ⟨hreceives, hlast⟩ := hwho hreceiver
    exact ⟨credits_attach (hgrows.trans hgrows') hreceives (hreceived hlast),
      fun _ => ⟨_, (received_attach hreceives).mpr (hreceived hlast)⟩⟩

/-- A text that does not only close takes no closers when it is blank behind them, and its ink is
not in the closers alone. -/
theorem rest_of_not_onlyCloses (hclosed : s.justClosed = true) (h : ¬s.OnlyCloses t) :
    ((∀ c ∈ t.dropWhile isCloser, isBlank c = true) → s.addClosers (t.takeWhile isCloser) = s) ∧
      ((∃ c ∈ t, isBlank c = false) → ∃ c ∈ t.dropWhile isCloser, isBlank c = false) := by
  have hnone : (∀ c ∈ t.dropWhile isCloser, isBlank c = true) → t.takeWhile isCloser = [] :=
    fun hblank => takeWhile_eq_nil_of_head? fun hcloser => h ⟨hclosed, hcloser, hblank⟩
  refine ⟨fun hblank => by rw [hnone hblank, addClosers_nil], fun hink => ?_⟩
  by_contra hno
  have hblank : ∀ c ∈ t.dropWhile isCloser, isBlank c = true := by simpa using hno
  have hsplit := List.takeWhile_append_dropWhile (p := isCloser) (l := t)
  rw [hnone hblank, List.nil_append] at hsplit
  exact hno (hsplit.symm ▸ hink)

theorem credits_push (hs : s.Reachable T) {span : Span} (hlink : span.link = some url)
    (h : ¬s.OnlyCloses span.text) : s.Credits (push T s span) url ∧
      ((∃ c ∈ span.text, isBlank c = false) → ∃ i, s.Received (push T s span) i) := by
  cases hclosed : s.justClosed with
  | false =>
    rw [push_of_not_justClosed hclosed, hlink]
    split
    · rename_i hempty
      exact ⟨credits_of_same rfl rfl, by simp [hempty]⟩
    · exact credits_pushBody hs.opens (.refl s) id fun _ => ⟨rfl, rfl⟩
  | true =>
    have hsettled := hs.settled hclosed
    obtain ⟨hsame, hrest⟩ := rest_of_not_onlyCloses hclosed h
    rw [push_of_justClosed hclosed, hlink]
    split
    · rename_i hempty
      rw [hsame (by simp [hempty])]
      exact ⟨credits_of_same rfl rfl, fun hink => by simpa [hempty] using hrest hink⟩
    · have hopens : (s.addClosers (span.text.takeWhile isCloser)).Opens :=
        opens_of_none hsettled.1
      have hgrows := (addClosers_grows hsettled (span.text.takeWhile isCloser)).1
      refine And.imp_right (fun hreceived hink => hreceived (hrest hink))
        (credits_pushBody hopens hgrows (.of_addClosers hsettled) fun hblank => ?_)
      rw [hsame hblank]
      exact ⟨rfl, rfl⟩

/-- The link of a span goes to the sentence that has received the last of its text, and to no other,
unless only closers of the span have gone to a sentence, the one just finished: then the link is
lost. A span that is not blank is always received. -/
theorem push_credits (hs : s.Reachable T) {span : Span} (hlink : span.link = some url) :
    (¬s.OnlyCloses span.text → s.Credits (push T s span) url) ∧
      (s.OnlyCloses span.text → ∀ j, (push T s span).linksAt j = s.linksAt j) ∧
      ((∃ c ∈ span.text, isBlank c = false) → ∃ i, s.Received (push T s span) i) := by
  refine ⟨fun h => (credits_push hs hlink h).1,
    fun h => (links_of_onlyCloses (hs.settled h.1) h).2, fun hink => ?_⟩
  by_cases h : s.OnlyCloses span.text
  · exact ⟨_, (links_of_onlyCloses (hs.settled h.1) h).1⟩
  · exact (credits_push hs hlink h).2 hink

/-- A span that closes one sentence, holds another and begins a third brings its link to the
third. -/
theorem push_credits_of_closer :
    let T := Terminators.fullStop
    let s := push T {} ⟨1, "He said “Stop.".toList, none⟩
    let span : Span := ⟨1, "” Then he left. And".toList, some "u".toList⟩
    s.Reachable T ∧ span.link = some "u".toList ∧ ¬s.OnlyCloses span.text ∧
      s.Credits (push T s span) "u".toList ∧ ∃ i, s.Received (push T s span) i := by
  intro T s span
  have hs : s.Reachable T := .push .start _
  have hmore : ¬s.OnlyCloses span.text := by
    rintro ⟨-, -, hblank⟩
    exact absurd (hblank 'T' (by decide)) (by decide)
  have hlink : span.link = some "u".toList := rfl
  obtain ⟨hcredits, -, hreceived⟩ := push_credits hs hlink
  exact ⟨hs, hlink, hmore, hcredits hmore, hreceived ⟨'T', by decide, by decide⟩⟩

/-- A closer in a link of its own goes to the sentence before it, the link goes nowhere. -/
theorem link_of_closer_is_lost :
    ¬∀ (T : Terminators) (s : Session), s.Reachable T → ∀ (span : Span) (url : Text),
      span.link = some url → s.Credits (push T s span) url := by
  intro h
  let s := push .fullStop {} ⟨1, "He said “Stop.".toList, none⟩
  let span : Span := ⟨1, "”".toList, some "u".toList⟩
  have hs : s.Reachable .fullStop := .push .start _
  have hclosed : (push .fullStop {} ⟨1, "He said “Stop.".toList, none⟩).justClosed = true := by cbv
  have hcloser : ∃ c ∈ "”".toList.head?, isCloser c = true := ⟨'”', by decide, by decide⟩
  have hrest : ∀ c ∈ "”".toList.dropWhile isCloser, isBlank c = true := by simp [isCloser]
  have hcloses : s.OnlyCloses span.text := ⟨hclosed, hcloser, hrest⟩
  obtain ⟨hreceived, hlinks⟩ :=
    links_of_onlyCloses (T := .fullStop) (hs.settled hcloses.1) hcloses
  obtain ⟨i, -, -, hadded, -⟩ := (h _ s hs span _ rfl).1 ⟨_, hreceived⟩
  rw [hlinks] at hadded
  simp at hadded

end ProseLint.Session
