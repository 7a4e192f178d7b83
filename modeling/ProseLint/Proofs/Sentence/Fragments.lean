import ProseLint.Proofs.Sentence.Relabel

/-!
# Text in fragments

When no terminator is a blank, a session is as good as the text that it has been given: the segments
of a span finish one sentence each, and the rest waits. So a text can come in fragments, one span
after another, unless a fragment ends where a sentence may end and the next one does not begin with
a blank.
-/
namespace ProseLint

namespace Session

variable {T : Terminators} {s : Session} {n : ℕ}

theorem merge_append (s : Session) (t u : Text) (n : ℕ) : s.merge (t ++ u) n =
    (((s.merge t n).1.merge u n).1, (s.merge t n).2 || ((s.merge t n).1.merge u n).2) := by
  obtain ⟨finished, unfinished, closed⟩ := s
  cases unfinished with
  | some x => by_cases ht : t = [] <;> by_cases hu : u = [] <;> simp [merge, ht, hu]
  | none =>
    by_cases ht : Text.trimStart t = []
    · simp [merge, Text.trimStart_append, ht]
    · by_cases hu : u = [] <;> simp [merge, Text.trimStart_append, ht, hu]

/-- Text that ends in ink is always added. -/
theorem merge_of_endsInInk (s : Session) {t : Text} (hends : Text.EndsInInk t) (ht : t ≠ []) :
    (s.merge t n).2 = true := by
  cases hmerge : s.merge t n with
  | mk s' added =>
    cases added with
    | true => rfl
    | false =>
      obtain ⟨-, hnil | ⟨-, hblank⟩⟩ := merge_eq_false hmerge
      · exact absurd hnil ht
      · exact absurd (Text.ink_eq_nil.mpr hblank) (hends.ink_ne_nil ht)

/-- Whether the last span ended where a sentence did has no part in merging and closing. -/
theorem merge_withClosed (s : Session) (t : Text) (n : ℕ) (closed : Bool) :
    ({ s with justClosed := closed } : Session).merge t n =
      ({ (s.merge t n).1 with justClosed := closed }, (s.merge t n).2) := by
  obtain ⟨finished, unfinished, c⟩ := s
  unfold merge
  cases unfinished <;> dsimp only <;> split <;> rfl

theorem close_withClosed (s : Session) (closed : Bool) :
    ({ s with justClosed := closed } : Session).close = { s.close with justClosed := closed } := by
  obtain ⟨finished, unfinished, c⟩ := s
  unfold close
  cases unfinished with
  | none => rfl
  | some u =>
    dsimp only
    split <;> rfl

theorem unfinished_close (s : Session) : s.close.unfinished = none := by
  unfold close
  cases h : s.unfinished with
  | none => exact h
  | some u =>
    dsimp only
    split <;> rfl

/-- Finish a sentence with a segment. -/
def finishWith (n : ℕ) (s : Session) (segment : Text) : Session := (s.merge segment n).1.close

theorem foldl_finishWith_withClosed (segments : List Text) (s : Session) (closed : Bool) :
    segments.foldl (finishWith n) { s with justClosed := closed } =
      { segments.foldl (finishWith n) s with justClosed := closed } := by
  induction segments generalizing s with
  | nil => rfl
  | cons a segments ih =>
    have hfirst : finishWith n { s with justClosed := closed } a =
        { finishWith n s a with justClosed := closed } := by
      rw [finishWith, merge_withClosed, close_withClosed]
      rfl
    rw [List.foldl_cons, List.foldl_cons, hfirst, ih]

theorem closeSegments_eq {segments : List Text}
    (h : ∀ a ∈ segments, a ≠ [] ∧ Text.EndsInInk a) (s : Session) (who : Receiver) :
    closeSegments n s who segments =
      (segments.foldl (finishWith n) s, if segments = [] then who else .lastFinished) := by
  induction segments generalizing s who with
  | nil => rfl
  | cons a segments ih =>
    obtain ⟨hne, hends⟩ := h a List.mem_cons_self
    have hadded := s.merge_of_endsInInk (n := n) hends hne
    rw [closeSegments]
    cases hmerge : s.merge a n with
    | mk s' added =>
      obtain rfl : added = true := by simpa [hmerge] using hadded
      dsimp only
      rw [ih (fun b hb => h b (List.mem_cons_of_mem _ hb))]
      have hs' : finishWith n s a = s'.close := by rw [finishWith, hmerge]
      rw [List.foldl_cons, hs']
      by_cases hnil : segments = [] <;> simp [hnil]

/-- No sentence ends in the unfinished one. -/
def Quiet (T : Terminators) (s : Session) : Prop := ∀ u ∈ s.unfinished, T.cut u.content = none

theorem quiet_nil (T : Terminators) : Quiet T {} := by
  intro u hu
  simp at hu

theorem Quiet.close (s : Session) : s.close.Quiet T := by
  intro u hu
  simp [unfinished_close] at hu

theorem Quiet.merge (hT : T.Inked) (hs : s.Quiet T) {t : Text} (ht : T.cut t = none) :
    (s.merge t n).1.Quiet T := by
  obtain ⟨finished, unfinished, closed⟩ := s
  cases unfinished with
  | some u =>
    have hu : T.cut u.content = none := hs u rfl
    intro x hx
    by_cases hnil : t = []
    · obtain rfl : u = x := by simpa [Session.merge, hnil] using hx
      exact hu
    · obtain rfl : _ = x := by simpa [Session.merge, hnil] using hx
      exact Terminators.cut_append_eq_none hu ht
  | none =>
    intro x hx
    obtain ⟨w, htrim, hw⟩ := Text.exists_append_trimStart t
    by_cases hnil : Text.trimStart t = []
    · simp [Session.merge, hnil] at hx
    · obtain rfl : _ = x := by simpa [Session.merge, hnil] using hx
      exact Terminators.cut_eq_none_of_append hT hw (htrim ▸ ht)

theorem Quiet.foldl (hs : s.Quiet T) (segments : List Text) :
    (segments.foldl (finishWith n) s).Quiet T := by
  induction segments generalizing s with
  | nil => exact hs
  | cons a segments ih => exact ih (.close _)

theorem Quiet.isTerminated (hs : s.Quiet T) : s.isTerminated T = false := by
  unfold Session.isTerminated
  cases hu : s.unfinished with
  | none => rfl
  | some u => simp [Terminators.firstEnd, hs u hu]

/-- What the text of a span leaves: its segments have each finished a sentence, its rest has been
added, and the span has just closed a sentence when it has segments and no rest. -/
def taken (T : Terminators) (n : ℕ) (t : Text) (s : Session) : Session :=
  { (((T.segments t).1.foldl (finishWith n) s).merge (T.segments t).2 n).1 with
    justClosed := (T.segments t).2.isEmpty && !(T.segments t).1.isEmpty }

theorem pushBody_eq_attach (hT : T.Inked) (hs : s.Quiet T) (t : Text) (link : Option Text) :
    ∃ who, s.pushBody T n t link = attach link who (s.taken T n t) := by
  obtain ⟨-, hrest, hsegments⟩ := T.segments_spec t
  have hends : ∀ a ∈ (T.segments t).1, a ≠ [] ∧ Text.EndsInInk a := fun a ha =>
    ⟨(hsegments a ha).1, (hsegments a ha).2 hT⟩
  have hquiet := (hs.foldl (n := n) (T.segments t).1).merge (n := n) hT hrest
  rw [pushBody, taken, closeSegments_eq hends]
  generalize (T.segments t).1.foldl (finishWith n) s = s' at hquiet ⊢
  have hclosed : ((if (T.segments t).1 = [] then Receiver.nobody else .lastFinished) ==
      .lastFinished) = !(T.segments t).1.isEmpty := by
    by_cases hnil : (T.segments t).1 = [] <;> simp [hnil]
  dsimp only
  rw [hclosed]
  cases hmerge : s'.merge (T.segments t).2 n with
  | mk s'' added =>
    rw [hmerge] at hquiet
    cases added with
    | false =>
      rw [(merge_eq_false hmerge).1]
      exact ⟨_, rfl⟩
    | true =>
      dsimp only
      rw [hquiet.isTerminated]
      exact ⟨_, rfl⟩

theorem pushBody_eq (hT : T.Inked) (hs : s.Quiet T) (t : Text) :
    s.pushBody T n t none = s.taken T n t := by
  obtain ⟨who, hbody⟩ := pushBody_eq_attach (n := n) hT hs t none
  exact hbody

theorem taken_withClosed (t : Text) (s : Session) (closed : Bool) :
    taken T n t { s with justClosed := closed } = s.taken T n t := by
  rw [taken, foldl_finishWith_withClosed, merge_withClosed]
  rfl

theorem taken_append (hT : T.Inked) (s : Session) {t u : Text} (ht : t ≠ []) (hu : u ≠ [])
    (htu : T.EndsRun t → ∀ c ∈ u.head?, isBlank c = true) :
    (s.taken T n t).taken T n u = s.taken T n (t ++ u) := by
  obtain ⟨-, hrest, -⟩ := T.segments_spec t
  have hsegments : T.segments (t ++ u) = _ :=
    Terminators.segments_append hT fun hnil _ => htu (Terminators.endsRun_of_segments hnil ht)
  rw [Terminators.segments_append_of_cut_none hrest] at hsegments
  rw [taken.eq_1 T n t s, taken_withClosed, taken, taken, hsegments, List.foldl_append]
  generalize (T.segments t).1.foldl (finishWith n) s = s'
  cases hparts : T.segments u with
  | mk segments rest =>
    cases segments with
    | nil =>
      obtain rfl : u = rest := by
        have hflat := (T.segments_spec u).1
        simpa [hparts] using hflat.symm
      simp [merge_append, hu]
    | cons a segments => simp [merge_append, finishWith]

theorem Quiet.taken (hT : T.Inked) (hs : s.Quiet T) (t : Text) : (s.taken T n t).Quiet T :=
  (hs.foldl _).merge hT (T.segments_spec t).2.1

/-- A text that is taken in without its leading closers, and what follows it. -/
theorem push_taken (hT : T.Inked) (hs : s.Quiet T) {t u : Text} (ht : t ≠ []) (hu : u ≠ [])
    (htu : T.EndsRun t → ∀ c ∈ u.head?, isBlank c = true) :
    push T (s.taken T n t) ⟨n, u, none⟩ = s.taken T n (t ++ u) := by
  rw [← taken_append hT s ht hu htu, ← pushBody_eq hT (hs.taken hT t)]
  cases hclosed : (s.taken T n t).justClosed with
  | false => rw [push_of_not_justClosed hclosed, if_neg hu]
  | true =>
    -- right behind a sentence end a blank follows, so there is no closer to take
    have hends : T.EndsRun t := by
      rw [Session.taken, Bool.and_eq_true, List.isEmpty_iff] at hclosed
      exact Terminators.endsRun_of_segments hclosed.1 ht
    obtain ⟨c, u, rfl⟩ := List.exists_cons_of_ne_nil hu
    have hcloser : isCloser c = false := by
      by_contra hc
      have hblank := htu hends c rfl
      simp [isBlank_of_isCloser (by simpa using hc)] at hblank
    rw [push_of_justClosed hclosed]
    simp [hcloser]

/-- Fragments of one text give what the text gives, unless the first ends in a run and the second
does not begin with a blank. -/
theorem push_append (hT : T.Inked) (hs : s.Quiet T) (t u : Text)
    (htu : T.EndsRun t → ∀ c ∈ u.head?, isBlank c = true) :
    push T (push T s ⟨n, t, none⟩) ⟨n, u, none⟩ = push T s ⟨n, t ++ u, none⟩ := by
  by_cases ht : t = []
  · simp [push, ht]
  by_cases hu : u = []
  · simp [push, hu]
  cases hclosed : s.justClosed with
  | false =>
    have hempty : t ++ u ≠ [] := by simp [ht]
    rw [push_of_not_justClosed hclosed, push_of_not_justClosed hclosed, if_neg ht, if_neg hempty,
      pushBody_eq hT hs, pushBody_eq hT hs, push_taken hT hs ht hu htu]
  | true =>
    have hsplit : t = t.takeWhile isCloser ++ t.dropWhile isCloser :=
      List.takeWhile_append_dropWhile.symm
    by_cases hrest : t.dropWhile isCloser = []
    · -- all closers: the span behind them is right behind the sentence end as well
      rw [hrest, List.append_nil] at hsplit
      have hstill : (s.addClosers t).justClosed = true := hclosed
      rw [push_of_justClosed hclosed, if_pos hrest, ← hsplit, push_of_justClosed hstill,
        push_of_justClosed hclosed]
      simp [List.takeWhile_append, List.dropWhile_append, hrest, ← hsplit]
    · have hquiet : (s.addClosers (t.takeWhile isCloser)).Quiet T := hs
      have hends : T.EndsRun (t.dropWhile isCloser) → ∀ c ∈ u.head?, isBlank c = true :=
        fun h => htu (hsplit ▸ h.append_left _)
      rw [push_of_justClosed hclosed, if_neg hrest, pushBody_eq hT hquiet,
        push_taken hT hquiet hrest hu hends, ← pushBody_eq hT hquiet, push_of_justClosed hclosed]
      have hlength : (t.takeWhile isCloser).length ≠ t.length := by
        intro h
        apply hrest
        have := congrArg List.length hsplit
        simp only [List.length_append] at this
        exact List.eq_nil_of_length_eq_zero (by omega)
      simp [List.takeWhile_append, List.dropWhile_append, hrest, hlength]

end Session

variable {T : Terminators}

theorem joinWith_space (first : Text) (rest : List Text) :
    Text.joinWith [' '] (first :: rest) = first ++ rest.flatMap fun l => ' ' :: l := by
  induction rest generalizing first with
  | nil => simp [Text.joinWith]
  | cons l rest ih => simp [Text.joinWith, ih]

/-- A space can always stand in a span of its own: behind it nothing is at a sentence end. -/
theorem Session.foldl_push_spaced (hT : T.Inked) {s : Session} (hs : s.Quiet T) (n : ℕ) (t : Text)
    (rest : List Text) :
    (rest.flatMap fun l => [⟨n, [' '], none⟩, ⟨n, l, none⟩]).foldl (push T)
      (push T s ⟨n, t, none⟩) = push T s ⟨n, t ++ rest.flatMap fun l => ' ' :: l, none⟩ := by
  induction rest generalizing t with
  | nil => simp
  | cons l rest ih =>
    have hspace : push T (push T s ⟨n, t, none⟩) ⟨n, [' '], none⟩ =
        push T s ⟨n, t ++ [' '], none⟩ := by
      refine push_append hT hs t [' '] fun _ c hc => ?_
      obtain rfl : ' ' = c := by simpa using hc
      rfl
    have hline : push T (push T s ⟨n, t ++ [' '], none⟩) ⟨n, l, none⟩ =
        push T s ⟨n, t ++ [' '] ++ l, none⟩ :=
      push_append hT hs _ l fun hends =>
        absurd hends (Terminators.not_endsRun_of_blank hT t rfl)
    rw [List.flatMap_cons, List.foldl_append, List.foldl_cons, List.foldl_cons, List.foldl_nil,
      hspace, hline, ih]
    simp

/-- Lines in spans of their own, with a space between neighbours, say what they say as one span. -/
theorem contents_extract_lines (hT : T.Inked) {spans : List Span} {first : Text} {rest : List Text}
    (hlinks : ∀ span ∈ spans, span.link = none)
    (htexts : spans.map (·.text) = first :: rest.flatMap fun l => [[' '], l]) (n : ℕ) :
    (extract T spans).map (·.content) =
      (extract T [⟨n, Text.joinWith [' '] (first :: rest), none⟩]).map (·.content) := by
  have hspans : spans.map (fun span => { span with line := n }) =
      ⟨n, first, none⟩ :: rest.flatMap fun l => [⟨n, [' '], none⟩, ⟨n, l, none⟩] := by
    have hall : spans.map (fun span => { span with line := n }) =
        (spans.map (·.text)).map fun t => ⟨n, t, none⟩ := by
      rw [List.map_map]
      refine List.map_congr_left fun span hspan => ?_
      simp [hlinks span hspan]
    rw [hall, htexts]
    simp [List.map_flatMap]
  rw [← contents_extract_onLine T spans n, hspans, extract, List.foldl_cons,
    Session.foldl_push_spaced hT (Session.quiet_nil T), ← joinWith_space]
  rfl

end ProseLint
