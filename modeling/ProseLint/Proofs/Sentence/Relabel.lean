import ProseLint.Proofs.Sentence.Extraction

/-!
# Extraction and relabelled sentences

What a session does to its sentences depends on their contents alone. So a map of sentences that
keeps contents, and goes along with the changes of contents and links, can be made before or after
a span is taken in. The line of a span shows in the lines of sentences only, and no sentence is
flagged as a first one.
-/
namespace ProseLint

/-- A map of sentences that keeps what they say. A new sentence on a line is mapped to a new
sentence on the line that `g` gives. -/
structure Relabels (f : Sentence → Sentence) (g : ℕ → ℕ) : Prop where
  content_eq : ∀ x, (f x).content = x.content
  withContent : ∀ x t, f { x with content := t } = { f x with content := t }
  withLinks : ∀ x urls,
    f { x with links := x.links ++ urls } = { f x with links := (f x).links ++ urls }
  new : ∀ t n, f { content := t, line := n } = { content := t, line := g n }

theorem Relabels.append {f : Sentence → Sentence} {g : ℕ → ℕ} (hf : Relabels f g) (x : Sentence)
    (t : Text) :
    f { x with content := x.content ++ t } = { f x with content := (f x).content ++ t } := by
  rw [hf.withContent, hf.content_eq]

namespace Session

variable {T : Terminators} {f : Sentence → Sentence} {g : ℕ → ℕ}

/-- The session with all its sentences mapped. -/
def map (f : Sentence → Sentence) (s : Session) : Session :=
  { s with finished := s.finished.map f, unfinished := s.unfinished.map f }

theorem merge_map (hf : Relabels f g) (s : Session) (t : Text) (n : ℕ) :
    (s.map f).merge t (g n) = ((s.merge t n).1.map f, (s.merge t n).2) := by
  obtain ⟨finished, unfinished, closed⟩ := s
  cases unfinished with
  | some u => by_cases ht : t = [] <;> simp [merge, map, ht, hf.append u t]
  | none => by_cases ht : Text.trimStart t = [] <;> simp [merge, map, ht, hf.new]

theorem close_map (hf : Relabels f g) (s : Session) : (s.map f).close = s.close.map f := by
  obtain ⟨finished, unfinished, closed⟩ := s
  cases unfinished with
  | none => rfl
  | some u =>
    have htrimmed : f { u with content := Text.trimEnd u.content } =
        { f u with content := Text.trimEnd u.content } := hf.withContent u _
    by_cases hblank : Text.trimEnd u.content = [] <;>
      simp [close, map, hblank, htrimmed, hf.content_eq]

theorem closeSegments_map (hf : Relabels f g) (segments : List Text) (s : Session) (who : Receiver)
    (n : ℕ) : closeSegments (g n) (s.map f) who segments =
      ((closeSegments n s who segments).1.map f, (closeSegments n s who segments).2) := by
  induction segments generalizing s who with
  | nil => rfl
  | cons a segments ih =>
    rw [closeSegments, closeSegments, merge_map hf]
    cases s.merge a n with
    | mk s' added =>
      cases added with
      | true =>
        dsimp only
        rw [close_map hf, ih]
      | false => exact ih s' who

theorem modifyLast_map {h : Sentence → Sentence} (hcomm : ∀ x, h (f x) = f (h x))
    (ss : List Sentence) : modifyLast h (ss.map f) = (modifyLast h ss).map f := by
  rcases List.eq_nil_or_concat' ss with rfl | ⟨init, x, rfl⟩
  · rfl
  · rw [List.map_append, List.map_singleton, modifyLast_append, modifyLast_append, hcomm]
    simp

theorem attach_map (hf : Relabels f g) (link : Option Text) (who : Receiver) (s : Session) :
    attach link who (s.map f) = (attach link who s).map f := by
  obtain ⟨finished, unfinished, closed⟩ := s
  cases link with
  | none => rfl
  | some url =>
    cases who with
    | nobody => rfl
    | unfinished => cases unfinished <;> simp [attach, map, hf.withLinks]
    | lastFinished =>
      have hlast := modifyLast_map (h := fun x => { x with links := x.links ++ [url] })
        (fun x => (hf.withLinks x [url]).symm) finished
      simp only [attach, map]
      rw [hlast]

theorem isTerminated_map (hf : Relabels f g) (s : Session) :
    (s.map f).isTerminated T = s.isTerminated T := by
  obtain ⟨finished, unfinished, closed⟩ := s
  cases unfinished <;> simp [isTerminated, map, hf.content_eq]

theorem pushBody_map (hf : Relabels f g) (s : Session) (n : ℕ) (t : Text) (link : Option Text) :
    (s.map f).pushBody T (g n) t link = (s.pushBody T n t link).map f := by
  unfold pushBody
  dsimp only
  rw [closeSegments_map hf]
  cases closeSegments n s .nobody (T.segments t).1 with
  | mk s' who =>
    dsimp only
    rw [merge_map hf]
    generalize (List.isEmpty (T.segments t).2 && who == .lastFinished) = closed
    cases s'.merge (T.segments t).2 n with
    | mk s'' added =>
      cases added with
      | false => exact attach_map hf link who { s'' with justClosed := closed }
      | true =>
        dsimp only
        rw [isTerminated_map hf]
        split
        · rw [close_map hf]
          exact attach_map hf link .lastFinished { s''.close with justClosed := true }
        · exact attach_map hf link .unfinished { s'' with justClosed := closed }

/-- Add closers to the last finished sentence. -/
def addClosers (closers : Text) (s : Session) : Session :=
  { s with finished := modifyLast (fun x => { x with content := x.content ++ closers }) s.finished }

@[simp] theorem addClosers_nil (s : Session) : s.addClosers [] = s := by
  have hsame : (fun x : Sentence => { x with content := x.content ++ [] }) = id := by
    funext x
    simp
  rw [addClosers, modifyLast, hsame, List.modify_id]

@[simp] theorem addClosers_addClosers (t u : Text) (s : Session) :
    (s.addClosers t).addClosers u = s.addClosers (t ++ u) := by
  simp [addClosers, modifyLast, List.modify_modify_eq, Function.comp_def]

theorem push_of_justClosed {s : Session} (h : s.justClosed = true) (span : Span) : push T s span =
    if span.text.dropWhile isCloser = [] then s.addClosers (span.text.takeWhile isCloser)
    else (s.addClosers (span.text.takeWhile isCloser)).pushBody T span.line
      (span.text.dropWhile isCloser) span.link := by
  obtain ⟨finished, unfinished, closed⟩ := s
  obtain rfl : closed = true := h
  unfold push
  by_cases hempty : span.text = []
  · simp [hempty]
  · simp only [List.isEmpty_iff, hempty, if_true, if_false]
    rfl

theorem push_of_not_justClosed {s : Session} (h : s.justClosed = false) (span : Span) :
    push T s span = if span.text = [] then s else s.pushBody T span.line span.text span.link := by
  simp [push, h]

theorem push_map (hf : Relabels f g) (s : Session) (span : Span) :
    push T (s.map f) { span with line := g span.line } = (push T s span).map f := by
  cases hclosed : s.justClosed with
  | false =>
    have hclosed' : (s.map f).justClosed = false := hclosed
    rw [push_of_not_justClosed hclosed, push_of_not_justClosed hclosed']
    split
    · rfl
    · exact pushBody_map hf s span.line span.text span.link
  | true =>
    have hclosed' : (s.map f).justClosed = true := hclosed
    have hclosers : ∀ closers, (s.map f).addClosers closers = (s.addClosers closers).map f := by
      intro closers
      have hlast := modifyLast_map (f := f)
        (h := fun x => { x with content := x.content ++ closers })
        (fun x => (hf.append x closers).symm) s.finished
      simp only [addClosers, map]
      rw [hlast]
    rw [push_of_justClosed hclosed, push_of_justClosed hclosed', hclosers]
    split
    · rfl
    · exact pushBody_map hf _ span.line _ span.link

theorem foldl_push_map (hf : Relabels f g) (spans : List Span) (s : Session) :
    (spans.map fun span => { span with line := g span.line }).foldl (push T) (s.map f) =
      (spans.foldl (push T) s).map f := by
  induction spans generalizing s with
  | nil => rfl
  | cons span spans ih => rw [List.map_cons, List.foldl_cons, push_map hf, ih, List.foldl_cons]

end Session

variable {f : Sentence → Sentence} {g : ℕ → ℕ}

theorem extract_map (hf : Relabels f g) (T : Terminators) (spans : List Span) :
    extract T (spans.map fun span => { span with line := g span.line }) =
      (extract T spans).map f := by
  have hfold := Session.foldl_push_map (T := T) hf spans {}
  have hstart : Session.map f {} = {} := rfl
  rw [hstart] at hfold
  rw [extract, hfold, Session.flush, Session.close_map hf]
  rfl

/-- The lines of the spans do not show in what the sentences say. -/
theorem contents_extract_onLine (T : Terminators) (spans : List Span) (n : ℕ) :
    (extract T (spans.map fun span => { span with line := n })).map (·.content) =
      (extract T spans).map (·.content) := by
  have hf : Relabels (fun x => { x with line := n }) fun _ => n :=
    ⟨fun _ => rfl, fun _ _ => rfl, fun _ _ => rfl, fun _ _ => rfl⟩
  rw [extract_map hf, List.map_map]
  rfl

theorem isFirst_of_mem_extract {T : Terminators} {spans : List Span} {x : Sentence}
    (h : x ∈ extract T spans) : x.isFirst = false := by
  have hf : Relabels (fun x => { x with isFirst := false }) id :=
    ⟨fun _ => rfl, fun _ _ => rfl, fun _ _ => rfl, fun _ _ => rfl⟩
  have hmap := extract_map hf T spans
  simp only [id, List.map_id'] at hmap
  rw [hmap] at h
  obtain ⟨y, -, rfl⟩ := List.mem_map.mp h
  rfl

end ProseLint
