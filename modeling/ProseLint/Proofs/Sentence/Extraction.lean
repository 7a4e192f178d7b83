import ProseLint.Proofs.Sentence.Cut
import ProseLint.Proofs.Sentence.Weave
import ProseLint.Sentence.Session

/-!
# What extraction keeps of a text

At any time the text of the spans is covered by the finished sentences and the unfinished one, so
no ink is lost, doubled or moved. Right behind a sentence end nothing is left over: a closer that
follows can be added to the last sentence. When no terminator is a blank, the text is matched
character by character and only the blanks between sentences are missing.
-/
namespace ProseLint

theorem exists_of_forall₂_concat {α β : Type*} {R : α → β → Prop} {l : List α} {a : α} {u : List β}
    (h : List.Forall₂ R (l ++ [a]) u) : ∃ v b, u = v ++ [b] ∧ List.Forall₂ R l v ∧ R a b := by
  induction l generalizing u with
  | nil =>
    cases h with
    | @cons _ b _ _ hab hnil =>
      cases hnil
      exact ⟨[], b, rfl, .nil, hab⟩
  | cons c l ih =>
    cases h with
    | @cons _ d _ _ hcd htail =>
      obtain ⟨v, b, rfl, hv, hab⟩ := ih htail
      exact ⟨d :: v, b, rfl, .cons hcd hv, hab⟩

variable {α : Type*} {line : α → ℕ} {T : Terminators}

/-- The marks of a span's text are all on the line of the span. -/
structure Marks (line : α → ℕ) (span : Span) (m : Marked α) : Prop where
  text_eq : Marked.text m = span.text
  line_eq : ∀ x ∈ m, line x.2 = span.line

namespace Session

/-- The finished sentences without flags and links. -/
def bodies (s : Session) : List (Text × ℕ) := s.finished.map Sentence.body

/-- The unfinished sentence without flags and links. -/
def current (s : Session) : Option (Text × ℕ) := s.unfinished.map Sentence.body

/-- The text that has been pushed, read off the state. -/
def Reads (line : α → ℕ) (T : Terminators) (s : Session) (past : Marked α) : Prop :=
  ∃ before stretch, past = before ++ stretch ∧ Covered line T.Inked s.bodies before ∧
    match s.current with
    | none => stretch = []
    | some b => Fills line T.Inked b stretch ∧ (T.Inked → T.cut b.1 = none)

/-- The text that has been pushed ends where the last finished sentence does. -/
structure Settled (line : α → ℕ) (T : Terminators) (s : Session) (past : Marked α) : Prop where
  current_eq : s.current = none
  bodies_ne : s.bodies ≠ []
  woven : Woven line T.Inked s.bodies past

theorem Settled.reads {s : Session} {past : Marked α} (h : s.Settled line T past) :
    s.Reads line T past := by
  refine ⟨past, [], by simp, h.woven.covered, ?_⟩
  rw [h.current_eq]

/-- Where blanks need not match, blanks behind the last sentence change nothing. -/
theorem Settled.append_blank {s : Session} {past m : Marked α} (h : s.Settled line T past)
    (hT : ¬ T.Inked) (hm : Marked.Blank m) : s.Settled line T (past ++ m) :=
  ⟨h.current_eq, h.bodies_ne, h.woven.append_blank h.bodies_ne hT hm⟩

theorem Reads.append_blank {s : Session} {past m : Marked α} (h : s.Reads line T past)
    (hs : s.current = none) (hm : Marked.Blank m) : s.Reads line T (past ++ m) := by
  obtain ⟨before, stretch, rfl, hcov, hcurrent⟩ := h
  rw [hs] at hcurrent
  subst hcurrent
  refine ⟨before ++ m, [], by simp, hcov.append_blank hm, ?_⟩
  rw [hs]

theorem merge_eq_false {s s' : Session} {fragment : Text} {n : ℕ}
    (h : s.merge fragment n = (s', false)) :
    s' = s ∧ (fragment = [] ∨ s.current = none ∧ ∀ c ∈ fragment, isBlank c = true) := by
  unfold merge at h
  cases hu : s.unfinished with
  | some u =>
    simp only [hu] at h
    split at h
    · rename_i he
      exact ⟨(congrArg Prod.fst h).symm, .inl (by simpa using he)⟩
    · simp at h
  | none =>
    simp only [hu] at h
    split at h
    · rename_i he
      refine ⟨(congrArg Prod.fst h).symm, .inr ⟨by simp [current, hu], ?_⟩⟩
      simpa [Text.trimStart, List.dropWhile_eq_nil_iff] using he
    · simp at h

/-- A fragment has just been added: `new`, all of it but some blanks in front, stands at the end of
the unfinished sentence, behind an `old` part without a sentence end. -/
structure Added (line : α → ℕ) (T : Terminators) (s : Session) (past : Marked α)
    (fragment : Text) : Prop where
  filled : ∃ b before stretch, s.current = some b ∧ past = before ++ stretch ∧
    Covered line T.Inked s.bodies before ∧ Fills line T.Inked b stretch ∧
    ∃ old w new, b.1 = old ++ new ∧ (T.Inked → T.cut old = none) ∧ fragment = w ++ new ∧
      (∀ c ∈ w, isBlank c = true) ∧ new ≠ []

theorem Reads.added {s s' : Session} {past m : Marked α} {n : ℕ} (h : s.Reads line T past)
    (hm : ∀ x ∈ m, line x.2 = n) (hs : s.merge (Marked.text m) n = (s', true)) :
    s'.bodies = s.bodies ∧ s'.Added line T (past ++ m) (Marked.text m) := by
  obtain ⟨before, stretch, rfl, hcov, hcurrent⟩ := h
  unfold merge at hs
  cases hu : s.unfinished with
  | some u =>
    simp only [hu] at hs
    split at hs
    · simp at hs
    · rename_i hne
      obtain rfl := congrArg Prod.fst hs
      simp only [current, hu, Option.map_some] at hcurrent
      refine ⟨rfl, ⟨_, before, stretch ++ m, rfl, by simp, hcov, hcurrent.1.append m,
        u.content, [], Marked.text m, rfl, hcurrent.2, rfl, by simp, by simpa using hne⟩⟩
  | none =>
    simp only [hu] at hs
    split at hs
    · simp at hs
    · rename_i hne
      obtain rfl := congrArg Prod.fst hs
      simp only [current, hu, Option.map_none] at hcurrent
      subst hcurrent
      obtain ⟨gap, x, rest, rfl, hgap, hx, hbody⟩ := Marked.exists_trimStart (by simpa using hne)
      have hfills : Fills line T.Inked (Marked.text (x :: rest), line x.2) (x :: rest) :=
        .of_text hx
      rw [hm x (by simp)] at hfills
      rw [hbody]
      refine ⟨rfl, ⟨_, before ++ gap, x :: rest, rfl, by simp, hcov.append_blank hgap, hfills, [],
        Marked.text gap, Marked.text (x :: rest), rfl, fun _ => rfl, Marked.text_append _ _,
        Marked.blank_iff_text.mp hgap, by simp⟩⟩

theorem Added.ne_nil {s : Session} {past : Marked α} {fragment : Text}
    (h : s.Added line T past fragment) : fragment ≠ [] := by
  obtain ⟨_, _, _, _, _, _, _, _, w, new, _, _, rfl, _, hne⟩ := h.filled
  simp [hne]

theorem Added.reads {s : Session} {past : Marked α} {fragment : Text}
    (h : s.Added line T past fragment) (hcut : T.cut fragment = none) : s.Reads line T past := by
  obtain ⟨b, before, stretch, hb, rfl, hcov, hfills, old, w, new, hnew, hold, rfl, hw, _⟩ :=
    h.filled
  refine ⟨before, stretch, rfl, hcov, ?_⟩
  rw [hb]
  refine ⟨hfills, fun hT => ?_⟩
  rw [hnew]
  exact Terminators.cut_append_eq_none (hold hT) (Terminators.cut_eq_none_of_append hT hw hcut)

theorem bodies_close {s : Session} {b : Text × ℕ} (hb : s.current = some b)
    (hne : Text.trimEnd b.1 ≠ []) :
    s.close.current = none ∧ s.close.bodies = s.bodies ++ [(Text.trimEnd b.1, b.2)] := by
  simp only [current, Option.map_eq_some_iff] at hb
  obtain ⟨u, hu, rfl⟩ := hb
  have hbody : (Text.trimEnd u.content).isEmpty = false := by simpa [Sentence.body] using hne
  simp [close, hu, hbody, current, bodies, Sentence.body]

theorem Added.settled {s : Session} {past : Marked α} {fragment : Text}
    (h : s.Added line T past fragment) (hends : T.Inked → Text.EndsInInk fragment) :
    s.close.Settled line T past := by
  obtain ⟨b, before, stretch, hb, rfl, hcov, hfills, old, w, new, hnew, _, rfl, _, hne⟩ := h.filled
  obtain ⟨hcurrent, hbodies⟩ := bodies_close hb hfills.trimEnd_ne_nil
  refine ⟨hcurrent, by simp [hbodies], ?_⟩
  rw [hbodies]
  refine hcov.finish_woven hfills fun hT => ?_
  rw [hnew, Text.endsInInk_append_right hne]
  exact (Text.endsInInk_append_right hne).mp (hends hT)

/-! ## Taking in a span -/

theorem Reads.closeSegments {s : Session} {past m : Marked α} {n : ℕ} {r : Receiver}
    {segments : List Text} (h : s.Reads line T past)
    (hr : r = .lastFinished → s.Settled line T past) (hm : ∀ x ∈ m, line x.2 = n)
    (htext : Marked.text m = segments.flatten)
    (hsegments : ∀ a ∈ segments, a ≠ [] ∧ (T.Inked → Text.EndsInInk a)) :
    (closeSegments n s r segments).1.Reads line T (past ++ m) ∧
      ((closeSegments n s r segments).2 = .lastFinished →
        (closeSegments n s r segments).1.Settled line T (past ++ m)) := by
  induction segments generalizing s r past m with
  | nil =>
    obtain rfl : m = [] := by simpa using htext
    simpa [Session.closeSegments] using ⟨h, hr⟩
  | cons a segments ih =>
    obtain ⟨m₁, m₂, rfl, rfl, h₂⟩ := Marked.exists_append_of_text htext
    have hm₁ : ∀ x ∈ m₁, line x.2 = n := fun x hx => hm x (by simp [hx])
    have hm₂ : ∀ x ∈ m₂, line x.2 = n := fun x hx => hm x (by simp [hx])
    obtain ⟨hne, hends⟩ := hsegments _ List.mem_cons_self
    have hrest := fun b hb => hsegments b (List.mem_cons_of_mem _ hb)
    rw [← List.append_assoc, Session.closeSegments]
    cases hmerge : s.merge (Marked.text m₁) n with
    | mk s' added =>
      cases added with
      | true =>
        have hsettled := (h.added hm₁ hmerge).2.settled hends
        exact ih hsettled.reads (fun _ => hsettled) hm₂ h₂ hrest
      | false =>
        obtain ⟨rfl, hcase⟩ := merge_eq_false hmerge
        obtain ⟨hcurrent, hblank⟩ := hcase.resolve_left hne
        have hT : ¬ T.Inked := fun hT => (hends hT).ink_ne_nil hne (Text.ink_eq_nil.mpr hblank)
        have hm₁' := Marked.blank_iff_text.mpr hblank
        exact ih (h.append_blank hcurrent hm₁') (fun hw => (hr hw).append_blank hT hm₁') hm₂ h₂
          hrest

/-- The state after a whole number of spans. -/
structure Follows (line : α → ℕ) (T : Terminators) (s : Session) (past : Marked α) : Prop where
  reads : s.Reads line T past
  settled : s.justClosed = true → s.Settled line T past

theorem Reads.follows {s : Session} {past : Marked α} (h : s.Reads line T past) (closed : Bool)
    (hc : closed = true → s.Settled line T past) :
    Follows line T { s with justClosed := closed } past :=
  ⟨h, fun h' => ⟨(hc h').current_eq, (hc h').bodies_ne, (hc h').woven⟩⟩

theorem modifyLast_append (f : Sentence → Sentence) (ss : List Sentence) (x : Sentence) :
    modifyLast f (ss ++ [x]) = ss ++ [f x] := by
  simp [modifyLast, List.modify_eq_take_drop]

theorem map_body_modifyLast {f : Sentence → Sentence} (hf : ∀ x, (f x).body = x.body)
    (ss : List Sentence) : (modifyLast f ss).map Sentence.body = ss.map Sentence.body := by
  rcases List.eq_nil_or_concat' ss with rfl | ⟨init, x, rfl⟩
  · rfl
  · rw [modifyLast_append]
    simp [hf]

theorem Follows.of_eq {s s' : Session} {past : Marked α} (h : s.Follows line T past)
    (hbodies : s'.bodies = s.bodies) (hcurrent : s'.current = s.current)
    (hclosed : s'.justClosed = s.justClosed) : s'.Follows line T past := by
  refine ⟨?_, fun hc => ?_⟩
  · have hreads := h.reads
    rw [Reads, ← hbodies, ← hcurrent] at hreads
    exact hreads
  · obtain ⟨hnone, hne, hwoven⟩ := h.settled (hclosed ▸ hc)
    rw [← hbodies] at hne hwoven
    exact ⟨hcurrent.trans hnone, hne, hwoven⟩

/-- A link changes no text. -/
theorem Follows.attach {s : Session} {past : Marked α} (h : s.Follows line T past)
    (link : Option Text) (who : Receiver) : (attach link who s).Follows line T past := by
  cases link with
  | none => exact h
  | some url =>
    cases who with
    | nobody => exact h
    | unfinished =>
      refine h.of_eq rfl ?_ rfl
      cases hu : s.unfinished <;> simp [Session.attach, current, hu, Sentence.body]
    | lastFinished =>
      refine h.of_eq ?_ rfl rfl
      exact map_body_modifyLast (f := fun x => { x with links := x.links ++ [url] })
        (fun _ => rfl) _

theorem isTerminated_eq_false {s : Session} {past : Marked α} (h : s.Reads line T past)
    (hT : T.Inked) : s.isTerminated T = false := by
  obtain ⟨_, _, _, _, hcurrent⟩ := h
  cases hu : s.unfinished with
  | none => simp [isTerminated, hu]
  | some u =>
    simp only [current, hu, Option.map_some] at hcurrent
    have hcut : T.cut u.content = none := hcurrent.2 hT
    simp [isTerminated, hu, Terminators.firstEnd, hcut]

theorem Follows.pushBody {s : Session} {past m : Marked α} {n : ℕ} (h : s.Follows line T past)
    (hm : ∀ x ∈ m, line x.2 = n) (link : Option Text) :
    (s.pushBody T n (Marked.text m) link).Follows line T (past ++ m) := by
  have hspec := Terminators.segments_spec T (Marked.text m)
  rw [Session.pushBody]
  generalize T.segments (Marked.text m) = parts at hspec ⊢
  obtain ⟨segments, rest⟩ := parts
  obtain ⟨happ, hnone, hsegments⟩ := hspec
  obtain ⟨m₁, m₂, rfl, h₁, rfl⟩ := Marked.exists_append_of_text happ.symm
  have hm₂ : ∀ x ∈ m₂, line x.2 = n := fun x hx => hm x (by simp [hx])
  have hclosed := h.reads.closeSegments (r := .nobody) (by simp) (fun x hx => hm x (by simp [hx]))
    h₁ hsegments
  rw [← List.append_assoc]
  dsimp only at hnone ⊢
  generalize closeSegments n s .nobody segments = closed at hclosed ⊢
  obtain ⟨s', who⟩ := closed
  obtain ⟨hreads, hsettled⟩ := hclosed
  dsimp only at hreads hsettled ⊢
  cases hmerge : s'.merge (Marked.text m₂) n with
  | mk s'' added =>
    cases added with
    | false =>
      obtain ⟨rfl, hcase⟩ := merge_eq_false hmerge
      refine Follows.attach (Reads.follows ?_ _ fun hc => ?_) link who
      · rcases hcase with hnil | ⟨hcurrent, hblank⟩
        · rwa [Marked.text_eq_nil.mp hnil, List.append_nil]
        · exact hreads.append_blank hcurrent (Marked.blank_iff_text.mpr hblank)
      · rw [Bool.and_eq_true, List.isEmpty_iff, Marked.text_eq_nil, beq_iff_eq] at hc
        obtain ⟨rfl, hwho⟩ := hc
        rw [List.append_nil]
        exact hsettled hwho
    | true =>
      obtain ⟨-, hadded⟩ := hreads.added hm₂ hmerge
      dsimp only
      split
      · -- a sentence end that only the whole sentence shows takes a blank terminator
        rename_i hterm
        have hT : ¬ T.Inked := by
          intro hT
          rw [isTerminated_eq_false (hadded.reads hnone) hT] at hterm
          contradiction
        have hs := hadded.settled fun h => absurd h hT
        exact (hs.reads.follows true fun _ => hs).attach link _
      · refine Follows.attach ((hadded.reads hnone).follows _ fun hc => ?_) link _
        rw [Bool.and_eq_true, List.isEmpty_iff] at hc
        exact absurd hc.1 hadded.ne_nil

/-- Closers right behind the last sentence become part of it. -/
theorem Settled.append_closers {s : Session} {past m : Marked α} (h : s.Settled line T past)
    (hm : ∀ c ∈ Marked.text m, isCloser c = true) :
    let add := modifyLast fun f => { f with content := f.content ++ Marked.text m }
    Settled line T { s with finished := add s.finished } (past ++ m) := by
  have hends : Text.EndsInInk (Marked.text m) := fun c hc =>
    isBlank_of_isCloser (hm c (List.mem_of_mem_getLast? hc))
  obtain ⟨hnone, hne, hwoven⟩ := h
  rcases List.eq_nil_or_concat' s.finished with hnil | ⟨init, x, hinit⟩
  · simp [bodies, hnil] at hne
  · rw [bodies, hinit, List.map_append] at hwoven
    refine ⟨hnone, ?_, ?_⟩
    · simp [bodies, hinit, modifyLast_append]
    · rw [bodies, hinit, modifyLast_append, List.map_append]
      exact hwoven.append_last hends

theorem Follows.push {s : Session} {past m : Marked α} {span : Span} (h : s.Follows line T past)
    (hm : Marks line span m) : (Session.push T s span).Follows line T (past ++ m) := by
  obtain ⟨htext, hline⟩ := hm
  unfold Session.push
  split
  · rename_i he
    obtain rfl : m = [] := by
      rw [← Marked.text_eq_nil, htext]
      simpa using he
    rwa [List.append_nil]
  · split
    · rename_i hclosed
      have happ : Marked.text m = span.text.takeWhile isCloser ++ span.text.dropWhile isCloser := by
        rw [htext, List.takeWhile_append_dropWhile]
      obtain ⟨m₁, m₂, rfl, h₁, h₂⟩ := Marked.exists_append_of_text happ
      have hclosers : ∀ c ∈ Marked.text m₁, isCloser c = true := by
        intro c hc
        rw [h₁] at hc
        exact List.mem_takeWhile_imp hc
      have hs := (h.settled hclosed).append_closers hclosers
      rw [← List.append_assoc]
      rw [← h₁, ← h₂]
      dsimp only
      split
      · rename_i he
        obtain rfl : m₂ = [] := by simpa using he
        rw [List.append_nil]
        exact ⟨hs.reads, fun _ => hs⟩
      · exact Follows.pushBody ⟨hs.reads, fun _ => hs⟩ (fun x hx => hline x (by simp [hx])) _
    · rw [← htext]
      exact h.pushBody hline _

theorem follows_foldl {spans : List Span} {ms : List (Marked α)}
    (hms : List.Forall₂ (Marks line) spans ms) {s : Session} {past : Marked α}
    (h : s.Follows line T past) :
    (spans.foldl (Session.push T) s).Follows line T (past ++ ms.flatten) := by
  induction hms generalizing s past with
  | nil => simpa using h
  | cons hm _ ih =>
    rw [List.flatten_cons, ← List.append_assoc]
    exact ih (h.push hm)

theorem follows_nil : Session.Follows line T {} ([] : Marked α) :=
  ⟨⟨[], [], rfl, Covered.nil, rfl⟩, by simp⟩

theorem Reads.covered_close {s : Session} {past : Marked α} (h : s.Reads line T past) :
    Covered line T.Inked s.close.bodies past := by
  obtain ⟨before, stretch, rfl, hcov, hcurrent⟩ := h
  cases hb : s.current with
  | none =>
    rw [hb] at hcurrent
    subst hcurrent
    have hu : s.unfinished = none := by simpa [current] using hb
    simpa [close, hu] using hcov
  | some b =>
    rw [hb] at hcurrent
    rw [(bodies_close hb hcurrent.1.trimEnd_ne_nil).2]
    exact hcov.finish hcurrent.1

end Session

/-- The sentences that are extracted from spans cover the text of the spans. -/
theorem covered_extract (T : Terminators) {spans : List Span} {ms : List (Marked α)}
    (hms : List.Forall₂ (Marks line) spans ms) :
    Covered line T.Inked ((extract T spans).map Sentence.body) ms.flatten :=
  (Session.follows_foldl hms Session.follows_nil).reads.covered_close

/-- The text of a span, each character marked with the line of the span. -/
def Span.lined (span : Span) : Marked ℕ := span.text.map fun c => (c, span.line)

@[simp] theorem Span.text_lined (span : Span) : Marked.text span.lined = span.text := by
  simp [Span.lined, Marked.text, Function.comp_def]

theorem text_flatMap_lined (spans : List Span) :
    Marked.text (spans.flatMap Span.lined) = spans.flatMap (·.text) := by
  induction spans with
  | nil => rfl
  | cons span spans ih => simp [ih]

theorem marks_lined (spans : List Span) :
    List.Forall₂ (Marks id) spans (spans.map Span.lined) := by
  rw [List.forall₂_map_right_iff, List.forall₂_same]
  intro span _
  exact ⟨span.text_lined, by simp [Span.lined]⟩

theorem covered_extract_lined (T : Terminators) (spans : List Span) :
    Covered id T.Inked ((extract T spans).map Sentence.body) (spans.flatMap Span.lined) :=
  covered_extract T (marks_lined spans)

/-- The span that holds a position of the whole text. -/
theorem exists_span_of_getElem? {spans : List Span} {p : ℕ} {x : Char × ℕ}
    (h : (spans.flatMap Span.lined)[p]? = some x) :
    ∃ before span after, spans = before ++ span :: after ∧
      (before.flatMap (·.text)).length ≤ p ∧
      p < (before.flatMap (·.text)).length + span.text.length ∧ x.2 = span.line := by
  induction spans generalizing p with
  | nil => simp at h
  | cons span spans ih =>
    rw [List.flatMap_cons] at h
    by_cases hp : p < span.lined.length
    · rw [List.getElem?_append_left hp] at h
      have hmem : x ∈ span.lined := List.mem_of_getElem? h
      obtain ⟨c, _, rfl⟩ := List.mem_map.mp hmem
      exact ⟨[], span, spans, rfl, Nat.zero_le _, by simpa [Span.lined] using hp, rfl⟩
    · rw [List.getElem?_append_right (by omega)] at h
      obtain ⟨before, span', after, rfl, hle, hlt, hline⟩ := ih h
      have hlen : span.lined.length = span.text.length := by simp [Span.lined]
      refine ⟨span :: before, span', after, rfl, ?_, ?_, hline⟩
      · simp only [List.flatMap_cons, List.length_append]
        omega
      · simp only [List.flatMap_cons, List.length_append]
        omega

/-- Extraction keeps the ink of a text whatever the terminators. When none of them is a blank, the
text is the sentences and the blank gaps around them, no sentence begins or ends with a blank, and
each stands on the line of the span that holds its first character. -/
theorem extract_keeps_text (T : Terminators) (spans : List Span) :
    Text.ink ((extract T spans).flatMap (·.content)) = Text.ink (spans.flatMap (·.text)) ∧
    (T.Inked → ∃ gaps : List Text, gaps.length = (extract T spans).length + 1 ∧
      (∀ g ∈ gaps, ∀ c ∈ g, isBlank c = true) ∧
      spans.flatMap (·.text) = weave gaps ((extract T spans).map (·.content)) ∧
      ∀ i s, (extract T spans)[i]? = some s →
        s.content ≠ [] ∧ (∀ c ∈ s.content.head?, isBlank c = false) ∧
        (∀ c ∈ s.content.getLast?, isBlank c = false) ∧
        ∃ before span after, spans = before ++ span :: after ∧ s.line = span.line ∧
          let p := (weave (gaps.take (i + 1)) (((extract T spans).take i).map (·.content))).length
          (before.flatMap (·.text)).length ≤ p ∧
            p < (before.flatMap (·.text)).length + span.text.length) := by
  have hcov := covered_extract_lined T spans
  constructor
  · rw [← flatMap_fst_body, hcov.ink_eq, text_flatMap_lined]
  · intro hT
    obtain ⟨gaps, hlen, hblank, htext, hfirst⟩ := hcov.exists_gaps hT
    rw [text_flatMap_lined, map_fst_body] at htext
    refine ⟨gaps, by simpa using hlen, hblank, htext, ?_⟩
    intro i s hi
    obtain ⟨hends, x, hget, hx, hhead, hline⟩ := hfirst i s.body (by simp [hi])
    obtain ⟨before, span, after, hspans, hle, hlt, hx2⟩ := exists_span_of_getElem? hget
    rw [← List.map_take, ← List.map_take, map_fst_body] at hle hlt
    have hhead' : s.content.head? = some x.1 := hhead
    refine ⟨?_, ?_, hends, before, span, after, hspans, hline.symm.trans hx2, hle, hlt⟩
    · intro hnil
      simp [hnil] at hhead'
    · intro c hc
      rw [hhead', Option.mem_some_iff] at hc
      rwa [← hc]

/-- A closer in a span of its own goes to the sentence that the span before it has finished. -/
theorem extract_keeps_text_of_closer :
    let spans : List Span := [⟨1, " It is «".toList, none⟩, ⟨2, "so.".toList, none⟩,
      ⟨2, "”".toList, none⟩, ⟨3, "  Then?".toList, some "u".toList⟩]
    Terminators.fullStop.Inked ∧
    ∃ gaps : List Text, gaps.length = (extract .fullStop spans).length + 1 ∧
      (∀ g ∈ gaps, ∀ c ∈ g, isBlank c = true) ∧
      spans.flatMap (·.text) = weave gaps ((extract .fullStop spans).map (·.content)) ∧
      ∀ i s, (extract .fullStop spans)[i]? = some s →
        s.content ≠ [] ∧ (∀ c ∈ s.content.head?, isBlank c = false) ∧
        (∀ c ∈ s.content.getLast?, isBlank c = false) ∧
        ∃ before span after, spans = before ++ span :: after ∧ s.line = span.line ∧
          let p := (weave (gaps.take (i + 1))
            (((extract .fullStop spans).take i).map (·.content))).length
          (before.flatMap (·.text)).length ≤ p ∧
            p < (before.flatMap (·.text)).length + span.text.length := by
  intro spans
  exact ⟨Terminators.inked_fullStop,
    (extract_keeps_text .fullStop spans).2 Terminators.inked_fullStop⟩

end ProseLint
