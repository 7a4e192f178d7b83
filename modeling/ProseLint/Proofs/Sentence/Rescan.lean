import ProseLint.Proofs.Sentence.Whole

/-!
# Without a second look

When a span has been taken in, a session looks once more for a sentence end in what is unfinished.
When no terminator is a blank there is none to be found: the unfinished sentence is made of texts in
which no sentence ends, and none of them leaves a run behind that the next could end. So a session
that leaves the second look out passes through the same states.
-/
namespace ProseLint.Session

variable {T : Terminators} {s : Session}

/-- Take in the text of a span as a session does, but for the second look, which is `ended`. -/
def pushBodyWith (ended : Session → Bool) (T : Terminators) (s : Session) (line : ℕ) (text : Text)
    (link : Option Text) : Session :=
  let parts := T.segments text
  let (s, who) := closeSegments line s .nobody parts.1
  let closed := parts.2.isEmpty && who == .lastFinished
  match s.merge parts.2 line with
  | (s, false) => attach link who { s with justClosed := closed }
  | (s, true) =>
    if ended s then attach link .lastFinished { s.close with justClosed := true }
    else attach link .unfinished { s with justClosed := closed }

def pushWith (ended : Session → Bool) (T : Terminators) (s : Session) (span : Span) : Session :=
  if span.text.isEmpty then s
  else if s.justClosed then
    let closers := span.text.takeWhile isCloser
    let rest := span.text.dropWhile isCloser
    let s := s.addClosers closers
    if rest.isEmpty then s else s.pushBodyWith ended T span.line rest span.link
  else s.pushBodyWith ended T span.line span.text span.link

theorem push_eq_pushWith (T : Terminators) : push T = pushWith (isTerminated T) T := rfl

/-- What the second look behind the text of a span is given. -/
def lookedAtBody (T : Terminators) (s : Session) (line : ℕ) (text : Text) : Session :=
  ((closeSegments line s .nobody (T.segments text).1).1.merge (T.segments text).2 line).1

/-- What the second look behind a span is given. -/
def lookedAt (T : Terminators) (s : Session) (span : Span) : Session :=
  if s.justClosed then (s.addClosers (span.text.takeWhile isCloser)).lookedAtBody T span.line
    (span.text.dropWhile isCloser)
  else s.lookedAtBody T span.line span.text

theorem pushBodyWith_congr {ended ended' : Session → Bool} {line : ℕ} {text : Text}
    (h : ended (s.lookedAtBody T line text) = ended' (s.lookedAtBody T line text))
    (link : Option Text) :
    s.pushBodyWith ended T line text link = s.pushBodyWith ended' T line text link := by
  rw [lookedAtBody] at h
  rw [pushBodyWith, pushBodyWith]
  dsimp only
  split
  · rfl
  · rename_i hmerge
    rw [hmerge] at h
    dsimp only at h
    rw [h]

/-- Nothing but the answer of the second look matters. -/
theorem pushWith_congr {ended ended' : Session → Bool} {span : Span}
    (h : ended (s.lookedAt T span) = ended' (s.lookedAt T span)) :
    pushWith ended T s span = pushWith ended' T s span := by
  rw [lookedAt] at h
  rw [pushWith, pushWith]
  dsimp only
  split at h <;> rename_i hclosed
  · rw [if_pos hclosed, if_pos hclosed, pushBodyWith_congr h]
  · rw [if_neg hclosed, if_neg hclosed, pushBodyWith_congr h]

theorem Quiet.lookedAtBody (hT : T.Inked) (hs : s.Quiet T) (line : ℕ) (text : Text) :
    (s.lookedAtBody T line text).Quiet T := by
  obtain ⟨-, hrest, hsegments⟩ := T.segments_spec text
  have hends : ∀ a ∈ (T.segments text).1, a ≠ [] ∧ Text.EndsInInk a := fun a ha =>
    ⟨(hsegments a ha).1, (hsegments a ha).2 hT⟩
  rw [Session.lookedAtBody, closeSegments_eq hends]
  exact (hs.foldl _).merge hT hrest

theorem Quiet.lookedAt (hT : T.Inked) (hs : s.Quiet T) (span : Span) :
    (s.lookedAt T span).Quiet T := by
  rw [Session.lookedAt]
  split
  · have hquiet : (s.addClosers (span.text.takeWhile isCloser)).Quiet T := hs
    exact hquiet.lookedAtBody hT _ _
  · exact hs.lookedAtBody hT _ _

/-- A quiet session can do without the second look. -/
theorem Quiet.push_eq (hT : T.Inked) (hs : s.Quiet T) (span : Span) :
    push T s span = pushWith (fun _ => false) T s span := by
  rw [push_eq_pushWith]
  exact pushWith_congr (hs.lookedAt hT span).isTerminated

inductive Move where
  | push (span : Span)
  | flush

/-- Make a move, where `take` is how spans are taken in. -/
def Move.make (take : Session → Span → Session) (s : Session) : Move → Session
  | push span => take s span
  | flush => s.flush.2

theorem Reachable.make (h : s.Reachable T) : (m : Move) → (m.make (Session.push T) s).Reachable T
  | .push span => h.push span
  | .flush => h.flush

theorem Reachable.scanl_eq (hT : T.Inked) (h : s.Reachable T) (moves : List Move) :
    moves.scanl (Move.make (Session.push T)) s =
      moves.scanl (Move.make (pushWith (fun _ => false) T)) s := by
  induction moves generalizing s with
  | nil => rfl
  | cons m moves ih =>
    have hmove : m.make (Session.push T) s = m.make (pushWith (fun _ => false) T) s := by
      cases m with
      | push span => exact (h.quiet hT).push_eq hT span
      | flush => rfl
    rw [List.scanl_cons, List.scanl_cons, ih (h.make m), hmove]

/-- When no terminator is a blank, a sentence that is unfinished begins with ink and no sentence
ends in it; right behind a sentence end nothing is unfinished, and the last finished sentence ends
where its text does. A second look never finds a sentence end, so the states that a session passes
through are the same without it. -/
theorem reachable_without_rescan (hT : T.Inked) :
    (∀ s : Session, s.Reachable T →
      (∀ u ∈ s.unfinished, u.content ≠ [] ∧ (∀ c ∈ u.content.head?, isBlank c = false) ∧
        T.firstEnd u.content = none) ∧
      (s.justClosed = true → s.unfinished = none ∧ ∃ x ∈ s.finished.getLast?,
        T.firstEnd x.content = some (Text.byteLength x.content)) ∧
      ∀ span, (s.lookedAt T span).isTerminated T = false) ∧
    ∀ moves : List Move, moves.scanl (Move.make (push T)) {} =
      moves.scanl (Move.make (pushWith (fun _ => false) T)) {} := by
  refine ⟨fun s hs => ⟨fun u hu => ?_, fun hclosed => ?_, fun span => ?_⟩, fun moves => ?_⟩
  · obtain ⟨c, hhead, hc⟩ := hs.opens u hu
    refine ⟨?_, fun d hd => ?_, Terminators.firstEnd_eq_none_iff.mpr (hs.quiet hT u hu)⟩
    · rintro hnil
      simp [hnil] at hhead
    · obtain rfl : c = d := Option.mem_unique hhead hd
      exact hc
  · obtain ⟨hnone, hne⟩ := hs.settled hclosed
    refine ⟨hnone, s.finished.getLast hne, List.getLast?_eq_some_getLast hne, ?_⟩
    exact Terminators.firstEnd_eq_byteLength_iff.mpr (hs.whole hT _ (List.getLast_mem hne))
  · exact ((hs.quiet hT).lookedAt hT span).isTerminated
  · exact Reachable.start.scanl_eq hT moves

/-- Closers behind a sentence end, several sentence ends in a span, and a flush between them. -/
theorem reachable_without_rescan_of_moves :
    let T := Terminators.japanese
    let s := push T (push T {} ⟨1, " 「Wait!".toList, some "u".toList⟩) ⟨2, "」".toList, none⟩
    let moves : List Move := [.push ⟨1, "Is it 3.14".toList, none⟩, .push ⟨1, "? So".toList, none⟩,
      .flush, .push ⟨2, "it is。Yes.) ".toList, none⟩]
    T.Inked ∧ s.Reachable T ∧ s.justClosed = true ∧ s.unfinished = none ∧
      (∃ x ∈ s.finished.getLast?, T.firstEnd x.content = some (Text.byteLength x.content)) ∧
      moves.scanl (Move.make (push T)) {} =
        moves.scanl (Move.make (pushWith (fun _ => false) T)) {} := by
  intro T s moves
  have hT : T.Inked := Terminators.inked_iff.mpr (by decide)
  have hs : s.Reachable T := (Reachable.start.push _).push _
  have hclosed : s.justClosed = true := by
    simp only [s, T]
    cbv
  obtain ⟨hstates, hmoves⟩ := reachable_without_rescan hT
  obtain ⟨hnone, hends⟩ := (hstates s hs).2.1 hclosed
  exact ⟨hT, hs, hclosed, hnone, hends, hmoves moves⟩

end ProseLint.Session
