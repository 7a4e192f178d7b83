import ProseLint.Proofs.Sentence.Fragments

/-!
# Reachable sessions

A session begins empty; spans and flushes lead on from there. A flush leaves nothing behind, so a
reachable state is what the spans since the last flush have left, and all that the text of spans
tells about a session holds of it: the unfinished sentence begins with ink, no sentence ends in it
when no terminator is a blank, and right behind a sentence end nothing is unfinished.
-/
namespace ProseLint.Session

variable {T : Terminators} {s : Session}

/-- The states that spans and flushes lead to. -/
inductive Reachable (T : Terminators) : Session → Prop
  | start : Reachable T {}
  | push {s : Session} (reached : Reachable T s) (span : Span) : Reachable T (push T s span)
  | flush {s : Session} (reached : Reachable T s) : Reachable T s.flush.2

theorem Reachable.exists_spans (h : s.Reachable T) :
    ∃ spans : List Span, s = spans.foldl (Session.push T) {} := by
  induction h with
  | start => exact ⟨[], rfl⟩
  | push _ span ih =>
    obtain ⟨spans, rfl⟩ := ih
    exact ⟨spans ++ [span], by simp⟩
  | flush => exact ⟨[], rfl⟩

theorem reachable_foldl (T : Terminators) (spans : List Span) :
    (spans.foldl (push T) {}).Reachable T := by
  induction spans using List.reverseRecOn with
  | nil => exact .start
  | append_singleton spans span ih =>
    rw [List.foldl_append]
    exact ih.push span

theorem Reachable.exists_follows (h : s.Reachable T) : ∃ past : Marked ℕ, s.Follows id T past := by
  obtain ⟨spans, rfl⟩ := h.exists_spans
  exact ⟨_, follows_foldl (marks_lined spans) follows_nil⟩

/-- An unfinished sentence begins with ink. -/
def Opens (s : Session) : Prop := ∀ u ∈ s.unfinished, ∃ c ∈ u.content.head?, isBlank c = false

theorem Reachable.opens (h : s.Reachable T) : s.Opens := by
  obtain ⟨past, hpast⟩ := h.exists_follows
  obtain ⟨_, _, _, _, hcurrent⟩ := hpast.reads
  intro u hu
  rw [current, Option.mem_def.mp hu] at hcurrent
  obtain ⟨x, _, -, hx, hhead, -⟩ := hcurrent.1.first
  exact ⟨x.1, hhead, hx⟩

theorem Reachable.quiet (h : s.Reachable T) (hT : T.Inked) : s.Quiet T := by
  obtain ⟨past, hpast⟩ := h.exists_follows
  obtain ⟨_, _, _, _, hcurrent⟩ := hpast.reads
  intro u hu
  rw [current, Option.mem_def.mp hu] at hcurrent
  exact hcurrent.2 hT

theorem Reachable.settled (h : s.Reachable T) (hc : s.justClosed = true) :
    s.unfinished = none ∧ s.finished ≠ [] := by
  obtain ⟨past, hpast⟩ := h.exists_follows
  obtain ⟨hnone, hne, -⟩ := hpast.settled hc
  exact ⟨by simpa [current] using hnone, by simpa [bodies] using hne⟩

/-- Away from sentence ends a text can be cut anywhere: in a reachable session two fragments of it
leave what the whole text leaves, when the first of them does not end in a terminator or in closers
behind one. -/
theorem push_fragments (hT : T.Inked) (hs : s.Reachable T) {a : Text} (ha : ¬T.EndsRun a) (b : Text)
    (n : ℕ) : push T (push T s ⟨n, a, none⟩) ⟨n, b, none⟩ = push T s ⟨n, a ++ b, none⟩ :=
  push_append hT (hs.quiet hT) a b fun hends => absurd hends ha

/-- The cut may fall between closers that go to the sentence just finished. -/
theorem push_fragments_of_closers :
    let T := Terminators.fullStop
    let s := push T {} ⟨1, "(He said “Stop.".toList, some "u".toList⟩
    T.Inked ∧ s.Reachable T ∧ ¬T.EndsRun "”".toList ∧
      push T (push T s ⟨2, "”".toList, none⟩) ⟨2, ") Then".toList, none⟩ =
        push T s ⟨2, "”".toList ++ ") Then".toList, none⟩ := by
  intro T s
  have hs : s.Reachable T := .push .start _
  have hcut : ¬T.EndsRun "”".toList := by
    rintro ⟨before, c, closers, ht, hc, -⟩
    have hmem : c ∈ "”".toList := by simp [ht]
    obtain rfl : c = '”' := by simpa using hmem
    exact absurd hc (by decide)
  exact ⟨Terminators.inked_fullStop, hs, hcut,
    push_fragments Terminators.inked_fullStop hs hcut ") Then".toList 2⟩

end ProseLint.Session
