import ProseLint.Markup.Plain
import ProseLint.Proofs.Markup.Run
import ProseLint.Proofs.Text.Lines
import ProseLint.Proofs.Text.Position

/-!
# Leaves laid in a source

A text leaf and an address are stretches of one line of the source, at their offsets. Between two
lines of a paragraph a space stands for the line feed. From left to right the leaves of a tree are
laid in the source one behind another: they never overlap and never go back.
-/
namespace ProseLint.Markup

def Leaf.isOmitted : Leaf → Bool
  | omitted _ => true
  | text _ _ | code _ _ | autolink _ _ | special _ _ => false

/-- The leaf stands on the first line of a text at `start`. -/
def Leaf.OnFirstLine (start : ℕ) (t : Text) (l : Leaf) : Prop :=
  ∃ a b, t = a ++ b ∧ '\n' ∉ a ∧ l.offset = start + Text.byteLength a

/-- Leaves that stand one behind another in a text at `start`: stretches of lines, and spaces that
stand for line feeds, each with the next leaf on the line right behind it. -/
inductive Lays : ℕ → Text → List Leaf → Prop
  | nil (start : ℕ) (t : Text) : Lays start t []
  | stretch {start : ℕ} {before after : Text} {l : Leaf} {ls : List Leaf}
      (copied : l = .text (start + Text.byteLength before) l.content ∨
        l = .autolink (start + Text.byteLength before) l.content)
      (ne_nil : l.content ≠ []) (one_line : '\n' ∉ l.content)
      (rest : Lays (start + Text.byteLength before + Text.byteLength l.content) after ls) :
      Lays start (before ++ (l.content ++ after)) (l :: ls)
  | joiner {start : ℕ} {before after : Text} {ls : List Leaf}
      (rest : Lays (start + Text.byteLength before + 1) after ls)
      (next : ∃ l ∈ ls.head?, l.OnFirstLine (start + Text.byteLength before + 1) after) :
      Lays start (before ++ '\n' :: after) (.text (start + Text.byteLength before) [' '] :: ls)

namespace Lays

variable {start : ℕ} {s t : Text} {l : Leaf} {ls ms : List Leaf}

/-- A stretch of one line is laid in itself. -/
theorem single (hcopied : l = .text start l.content ∨ l = .autolink start l.content)
    (hne : l.content ≠ []) (hline : '\n' ∉ l.content) : Lays start l.content [l] := by
  have h := @Lays.stretch start [] [] l [] hcopied hne hline (.nil _ _)
  rwa [List.nil_append, List.append_nil] at h

theorem append (h : Lays start s ls) (h' : Lays (start + Text.byteLength s) t ms) :
    Lays start (s ++ t) (ls ++ ms) := by
  induction h with
  | nil start s =>
    have hstart : ∀ b, start + Text.byteLength s + Text.byteLength b =
        start + Text.byteLength (s ++ b) := by
      intro b
      rw [Text.byteLength_append, Nat.add_assoc]
    cases h' with
    | nil => exact .nil _ _
    | stretch copied hne hline rest =>
      rw [hstart] at copied rest
      rw [← List.append_assoc]
      exact .stretch copied hne hline rest
    | joiner rest next =>
      rw [hstart] at rest next ⊢
      rw [← List.append_assoc]
      exact .joiner rest next
  | @stretch start before after l ls copied hne hline _ ih =>
    rw [List.append_assoc, List.append_assoc]
    refine .stretch copied hne hline (ih ?_)
    simpa only [Text.byteLength_append, Nat.add_assoc] using h'
  | @joiner start before after ls _ next ih =>
    obtain ⟨l, hl, a, b, rfl, ha, hoffset⟩ := next
    rw [List.append_assoc, List.cons_append]
    refine .joiner (ih ?_) ⟨l, ?_, a, b ++ t, by rw [List.append_assoc], ha, hoffset⟩
    · have hfeed : ('\n' : Char).utf8Size = 1 := rfl
      simpa only [Text.byteLength_append, Text.byteLength_cons, hfeed, Nat.add_assoc] using h'
    · obtain ⟨ls, rfl⟩ := List.head?_eq_some_iff.mp hl
      rfl

/-- The text in front may be left out. -/
theorem skip (s : Text) (h : Lays (start + Text.byteLength s) t ls) : Lays start (s ++ t) ls :=
  (nil start s).append h

/-- The text behind may be left out. -/
theorem extend (h : Lays start s ls) (t : Text) : Lays start (s ++ t) ls := by
  simpa using h.append (nil _ t)

/-- A joiner in place of the line feed in front of a line. -/
theorem join (h : Lays (start + 1) t ls) (hnext : ∃ l ∈ ls.head?, l.OnFirstLine (start + 1) t) :
    Lays start ('\n' :: t) (.text start [' '] :: ls) :=
  @Lays.joiner start [] t ls h hnext

/-- In a single line the first leaf stands on the first line. -/
theorem head_onFirstLine (h : Lays start t ls) (ht : '\n' ∉ t) (hls : ls ≠ []) :
    ∃ l ∈ ls.head?, l.OnFirstLine start t := by
  cases h with
  | nil => exact absurd rfl hls
  | stretch copied =>
    refine ⟨_, rfl, _, _, rfl, fun hmem => ht ?_, ?_⟩
    · exact List.mem_append_left _ hmem
    · rcases copied with hl | hl <;> rw [hl] <;> rfl
  | joiner => simp at ht

theorem byteLength_content_pos (h : Lays start t ls) (hl : l ∈ ls) :
    0 < Text.byteLength l.content := by
  induction h with
  | nil => simp at hl
  | stretch _ hne _ _ ih =>
    rcases List.mem_cons.mp hl with rfl | hl
    · exact Text.byteLength_pos hne
    · exact ih hl
  | joiner _ _ ih =>
    rcases List.mem_cons.mp hl with rfl | hl
    · exact Text.byteLength_pos (by simp [Leaf.content])
    · exact ih hl

theorem le_offset (h : Lays start t ls) (hl : l ∈ ls) : start ≤ l.offset := by
  induction h with
  | nil => simp at hl
  | stretch copied _ _ _ ih =>
    rcases List.mem_cons.mp hl with rfl | hl
    · rcases copied with hl | hl <;> rw [hl] <;> simp [Leaf.offset]
    · have := ih hl
      omega
  | joiner _ _ ih =>
    rcases List.mem_cons.mp hl with rfl | hl
    · simp [Leaf.offset]
    · have := ih hl
      omega

/-- A leaf ends where the next one begins, or in front of it. -/
theorem pairwise (h : Lays start t ls) :
    ls.Pairwise fun l l' => l.offset + Text.byteLength l.content ≤ l'.offset := by
  induction h with
  | nil => exact .nil
  | stretch copied _ _ rest ih =>
    refine .cons (fun l' hl' => ?_) ih
    have hle := rest.le_offset hl'
    rcases copied with hl | hl <;> rw [hl] <;> simpa [Leaf.offset, Leaf.content] using hle
  | joiner rest _ ih =>
    refine .cons (fun l' hl' => ?_) ih
    have hle := rest.le_offset hl'
    have hblank : (' ' : Char).utf8Size = 1 := rfl
    simpa [Leaf.offset, Leaf.content, hblank] using hle

end Lays

namespace Node

/-- The leaves of trees, from left to right, but for what is left out. -/
def shownOfAll (ns : List Node) : List Leaf := (leavesOfAll ns).filter fun l => !l.isOmitted

def shown (n : Node) : List Leaf := n.leaves.filter fun l => !l.isOmitted

@[simp] theorem shownOfAll_nil : shownOfAll [] = [] := rfl

@[simp] theorem shown_leaf (l : Leaf) :
    shown (.leaf l) = if l.isOmitted then [] else [l] := by
  cases l <;> rfl

@[simp] theorem shown_text (offset : ℕ) (t : Text) : (text offset t).shown = [.text offset t] := rfl

@[simp] theorem shown_container (kind : Container) (ns : List Node) :
    shown (.container kind ns) = shownOfAll ns := by
  rw [shown, leaves, shownOfAll]

@[simp] theorem shownOfAll_cons (n : Node) (ns : List Node) :
    shownOfAll (n :: ns) = n.shown ++ shownOfAll ns := by
  simp [shownOfAll, leavesOfAll, shown]

@[simp] theorem shownOfAll_append (ns ns' : List Node) :
    shownOfAll (ns ++ ns') = shownOfAll ns ++ shownOfAll ns' := by
  induction ns with
  | nil => rfl
  | cons n ns ih => simp [ih]

end Node

open Node

theorem lays_text (offset : ℕ) {t : Text} (hne : t ≠ []) (hline : '\n' ∉ t) :
    Lays offset t [.text offset t] := Lays.single (l := .text offset t) (.inl rfl) hne hline

/-- A line, or a line behind the line feed of the line before. -/
structure SourceLine.Fed (l : SourceLine) (start : ℕ) (feed : Text) : Prop where
  offset_eq : l.offset = start + Text.byteLength feed
  feed_eq : feed = [] ∨ feed = ['\n']

namespace SourceLine.Fed

variable {l : SourceLine} {start : ℕ} {feed : Text} {new : List Leaf}

/-- The leaves of a line may be preceded by a joiner if there is a line feed in front. -/
theorem lays_joined (h : l.Fed start feed) (hfeed : feed ≠ []) (hl : '\n' ∉ l.text)
    (hne : new ≠ []) (hnew : Lays l.offset l.text new) :
    Lays start (feed ++ l.text) (.text l.joinerOffset [' '] :: new) := by
  obtain rfl := h.feed_eq.resolve_left hfeed
  have hoffset : l.offset = start + 1 := h.offset_eq
  have hjoiner : l.joinerOffset = start := by
    rw [joinerOffset, hoffset]
    exact Nat.add_sub_cancel _ _
  rw [hoffset] at hnew
  rw [hjoiner]
  exact hnew.join (hnew.head_onFirstLine hl hne)

theorem lays (h : l.Fed start feed) (hnew : Lays l.offset l.text new) :
    Lays start (feed ++ l.text) new :=
  .skip feed (h.offset_eq ▸ hnew)

end SourceLine.Fed

/-- The last byte of a line is that of the break in front of the next line. -/
theorem next_start {l : Text} (hl : l ≠ []) (n : ℕ) :
    n + Text.byteLength l - 1 + Text.byteLength ['\n'] = n + Text.byteLength l := by
  have hpos := Text.byteLength_pos hl
  have hone : Text.byteLength ['\n'] = 1 := rfl
  omega

/-- The leaves of a line, and behind them those of the lines that follow. -/
theorem Lays.append_lines {start : ℕ} {feed l : Text} {ls : List Text} {new more : List Leaf}
    (hlines : Text.AreLines (l :: ls)) (hnew : Lays start (feed ++ Text.chomp l) new)
    (hnil : ls = [] → more = [])
    (hmore : Lays (start + Text.byteLength feed + Text.byteLength l - 1)
      ('\n' :: ls.flatten) more) :
    Lays start (feed ++ (l :: ls).flatten) (new ++ more) := by
  have hbreaks := hlines.breaks
  rw [List.flatten_cons]
  by_cases hls : ls = []
  · obtain ⟨w, hw⟩ := Text.exists_chomp_append l
    have hextend := hnew.extend w
    rw [List.append_assoc, ← hw] at hextend
    rw [hnil hls, hls, List.flatten_nil, List.append_nil, List.append_nil]
    exact hextend
  · rw [List.dropLast_cons_of_ne_nil hls] at hbreaks
    obtain ⟨body, rfl⟩ := hbreaks l List.mem_cons_self
    obtain ⟨w, hw⟩ := Text.exists_chomp_of_break body
    have hfeed : ('\n' : Char).utf8Size = 1 := rfl
    have hlength := congrArg Text.byteLength hw
    have hstart : start + Text.byteLength feed + Text.byteLength (body ++ ['\n']) - 1 =
        start + Text.byteLength (feed ++ Text.chomp (body ++ ['\n']) ++ w) := by
      simp only [Text.byteLength_append, Text.byteLength_cons, Text.byteLength_nil, hfeed]
        at hlength ⊢
      omega
    rw [hstart] at hmore
    have htext : feed ++ (body ++ ['\n'] ++ ls.flatten) =
        feed ++ Text.chomp (body ++ ['\n']) ++ w ++ '\n' :: ls.flatten := by
      conv_lhs => rw [hw]
      simp
    rw [htext]
    exact (hnew.extend w).append hmore

namespace Plain

@[simp] theorem shownOfAll_closeParagraph (children : List Node) :
    shownOfAll (closeParagraph children) = shownOfAll children := by
  unfold closeParagraph
  split
  · rename_i h
    rw [List.isEmpty_iff.mp h]
  · simp

theorem lays_addLine {l : SourceLine} {start : ℕ} {feed : Text} {children : List Node}
    (hfed : l.Fed start feed) (hjoin : children ≠ [] → feed ≠ []) (hl : '\n' ∉ l.text)
    (hne : l.text ≠ []) : ∃ new, shownOfAll (addLine children l) = shownOfAll children ++ new ∧
      Lays start (feed ++ l.text) new := by
  have hlays := lays_text l.offset hne hl
  unfold addLine
  split
  · rename_i hempty
    obtain rfl := List.isEmpty_iff.mp hempty
    exact ⟨_, by simp, hfed.lays hlays⟩
  · rename_i hempty
    have hchildren : children ≠ [] := by simpa using hempty
    exact ⟨_, by simp, hfed.lays_joined (hjoin hchildren) hl (by simp) hlays⟩

/-- Behind the leaves of the paragraph under way the leaves of the lines are laid. -/
theorem lays_paragraphsFrom {ls : List Text} (hls : Text.AreLines ls) (start : ℕ) {feed : Text}
    (hfeed : feed = [] ∨ feed = ['\n']) (children : List Node) (hjoin : children ≠ [] → feed ≠ []) :
    ∃ new, shownOfAll (paragraphsFrom children
        (SourceLine.place (start + Text.byteLength feed) ls)) = shownOfAll children ++ new ∧
      (ls = [] → new = []) ∧ Lays start (feed ++ ls.flatten) new := by
  induction ls generalizing start feed children with
  | nil => exact ⟨[], by simp [SourceLine.place, paragraphsFrom], fun _ => rfl, .nil _ _⟩
  | cons l ls ih =>
    have hfed : SourceLine.Fed ⟨start + Text.byteLength feed, Text.chomp l⟩ start feed :=
      ⟨rfl, hfeed⟩
    have hrest := fun children =>
      ih hls.tail (start + Text.byteLength feed + Text.byteLength l - 1) (.inr rfl) children
        fun _ => List.cons_ne_nil '\n' []
    rw [next_start (hls.ne_nil l List.mem_cons_self)] at hrest
    rw [SourceLine.place, paragraphsFrom]
    dsimp only
    split
    · obtain ⟨more, hmore, hnil, hlays⟩ := hrest []
      have hnone : Lays start (feed ++ Text.chomp l) [] := .nil start _
      exact ⟨more, by simp [hmore], by simp, .append_lines hls hnone hnil hlays⟩
    · rename_i hblank
      have hne : Text.chomp l ≠ [] := by
        intro hnil
        simp [hnil, Text.allBlank] at hblank
      obtain ⟨new, hnew, hlays⟩ :=
        lays_addLine hfed hjoin (hls.one_line l List.mem_cons_self) hne
      obtain ⟨more, hmore, hnil, hlays'⟩ :=
        hrest (addLine children ⟨start + Text.byteLength feed, Text.chomp l⟩)
      exact ⟨new ++ more, by rw [hmore, hnew, List.append_assoc], by simp,
        .append_lines hls hlays hnil hlays'⟩

/-- The leaves of a plain text tree are laid in the source. -/
theorem lays_read (source : Text) : Lays 0 source (read source).shown := by
  obtain ⟨new, hnew, -, hlays⟩ := lays_paragraphsFrom (Text.areLines_lines source) 0
    (.inl rfl) [] (by simp)
  rw [List.nil_append, Text.flatten_lines] at hlays
  rw [read, shown_container, SourceLine.all]
  rw [shownOfAll_nil, List.nil_append] at hnew
  exact hnew ▸ hlays

end Plain
end ProseLint.Markup
