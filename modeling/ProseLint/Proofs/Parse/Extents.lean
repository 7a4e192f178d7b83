import ProseLint.Parse
import ProseLint.Proofs.Markup.WikiLaying

/-!
# Where leaves stand in the source

In the tree of a wiki text or of a plain text each leaf that shows anything is copied from the
source, byte for byte, but for the spaces that join the lines of a paragraph. A joiner has the place
of the line feed between two lines. From left to right the places follow one another without
overlap.
-/
namespace ProseLint

namespace Markup

namespace Leaf

/-- The leaf is a text or an address. -/
def IsCopy : Leaf → Prop
  | text _ _ | autolink _ _ => True
  | code _ _ | special _ _ | omitted _ => False

/-- The text holds the content of the leaf at its offset. -/
def Copies (l : Leaf) (text : Text) : Prop :=
  ∃ before after, text = before ++ (l.content ++ after) ∧ l.offset = Text.byteLength before

/-- The leaf is a space in the place of a line feed, and the next leaf stands on the line right
behind it. -/
def Joins (l : Leaf) (next : Option Leaf) (text : Text) : Prop :=
  ∃ before after, l = .text (Text.byteLength before) [' '] ∧ text = before ++ '\n' :: after ∧
    ∃ l' ∈ next, l'.OnFirstLine (Text.byteLength before + 1) after

end Leaf

/-- Each leaf stands in the text, or joins two lines of it, and ends where the next one begins or
in front of it. -/
structure Extents (text : Text) (ls : List Leaf) : Prop where
  isCopy : ∀ l ∈ ls, l.IsCopy
  stands : ∀ (i : ℕ) (l : Leaf), ls[i]? = some l → l.Copies text ∨ l.Joins ls[i + 1]? text
  increasing : ls.Pairwise fun l l' => l.offset < l'.offset
  disjoint : ls.Pairwise fun l l' => l.offset + Text.byteLength l.content ≤ l'.offset

namespace Lays

variable {start : ℕ} {t : Text} {l : Leaf} {ls : List Leaf}

theorem isCopy (h : Lays start t ls) (hl : l ∈ ls) : l.IsCopy := by
  induction h with
  | nil => simp at hl
  | stretch copied _ _ _ ih =>
    rcases List.mem_cons.mp hl with rfl | hl
    · rcases copied with hl | hl <;> rw [hl] <;> trivial
    · exact ih hl
  | joiner _ _ ih =>
    rcases List.mem_cons.mp hl with rfl | hl
    · trivial
    · exact ih hl

theorem stands (h : Lays start t ls) (passed : Text) (hstart : start = Text.byteLength passed)
    {i : ℕ} (hi : ls[i]? = some l) :
    l.Copies (passed ++ t) ∨ l.Joins ls[i + 1]? (passed ++ t) := by
  induction h generalizing passed i with
  | nil => simp at hi
  | @stretch start before after l' ls copied _ _ _ ih =>
    subst hstart
    cases i with
    | zero =>
      obtain rfl : l' = l := by simpa using hi
      refine .inl ⟨passed ++ before, after, by simp, ?_⟩
      rw [Text.byteLength_append]
      rcases copied with hl | hl <;> rw [hl] <;> rfl
    | succ i =>
      have hrest := ih (passed ++ before ++ l'.content) (by simp [Nat.add_assoc])
        (by simpa using hi)
      simpa using hrest
  | @joiner start before after ls _ next ih =>
    subst hstart
    cases i with
    | zero =>
      obtain rfl : Leaf.text (Text.byteLength passed + Text.byteLength before) [' '] = l := by
        simpa using hi
      obtain ⟨l', hl', hline⟩ := next
      refine .inr ⟨passed ++ before, after, by simp, by simp, l', ?_, ?_⟩
      · simpa [List.head?_eq_getElem?] using hl'
      · rwa [Text.byteLength_append]
    | succ i =>
      have hfeed : ('\n' : Char).utf8Size = 1 := rfl
      have hrest := ih (passed ++ before ++ ['\n']) (by simp [hfeed, Nat.add_assoc])
        (by simpa using hi)
      simpa using hrest

theorem extents (h : Lays 0 t ls) : Extents t ls := by
  refine ⟨fun l hl => h.isCopy hl, fun i l hi => h.stands [] rfl hi, ?_, h.pairwise⟩
  refine h.pairwise.imp_of_mem fun hl _ hle => ?_
  have hpos := h.byteLength_content_pos hl
  omega

end Lays
end Markup

namespace Parse

/-- In a wiki text and in a plain text, the leaves that show anything are copied from the source or
join two of its lines, and their places follow one another. -/
theorem source_extents (format : InputFormat) (hformat : format = .wiki ∨ format = .plain)
    (text : Text) : ∃ t, tree format text = .ok t ∧ Markup.Extents text t.shown := by
  rcases hformat with rfl | rfl
  · exact ⟨_, rfl, (Markup.Wiki.lays_read text).extents⟩
  · exact ⟨_, rfl, (Markup.Plain.lays_read text).extents⟩

/-- Two joined lines with a link inside an emphasis, and a list that begins two levels deep. -/
theorem source_extents_of_wiki :
    ∃ t, tree .wiki "«a» *b [c|d]*\r\n[http://é] e\n** f".toList = .ok t ∧
      t.shown = [.text 0 "«a» ".toList, .text 7 "b ".toList, .text 10 "c".toList, .text 16 [' '],
        .autolink 18 "http://é".toList, .text 28 " e".toList, .text 34 "f".toList] ∧
      Markup.Extents "«a» *b [c|d]*\r\n[http://é] e\n** f".toList t.shown := by
  obtain ⟨t, ht, hextents⟩ :=
    source_extents .wiki (.inl rfl) "«a» *b [c|d]*\r\n[http://é] e\n** f".toList
  have hshown : t.shown = [.text 0 "«a» ".toList, .text 7 "b ".toList, .text 10 "c".toList,
      .text 16 [' '], .autolink 18 "http://é".toList, .text 28 " e".toList,
      .text 34 "f".toList] := by
    rw [← Except.ok.inj ht]
    cbv
  exact ⟨t, ht, hshown, hextents⟩

end Parse
end ProseLint
