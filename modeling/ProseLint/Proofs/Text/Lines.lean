import Mathlib.Data.List.DropRight
import Mathlib.Tactic
import ProseLint.LineTable

/-!
# The line of an offset

The bisection of a line table ends at the number of lines that end at the offset or before it. At
the offset of a character that is the number of line feeds in front of the character.
-/
namespace ProseLint

namespace Text

theorem exists_of_mem_lines {t l : Text} (h : l ∈ lines t) :
    ∃ body, '\n' ∉ body ∧ (l = body ∨ l = body ++ ['\n']) := by
  induction t generalizing l with
  | nil => simp [lines] at h
  | cons c t ih =>
    rw [lines] at h
    split at h
    · rename_i hc
      rcases List.mem_cons.mp h with rfl | h
      · exact ⟨[], by simp, .inr (by simp [hc])⟩
      · exact ih h
    · rename_i hc
      split at h
      · obtain rfl : l = [c] := by simpa using h
        exact ⟨[c], by simpa using Ne.symm hc, .inl rfl⟩
      · rename_i l' ls hlines
        rcases List.mem_cons.mp h with rfl | h
        · obtain ⟨body, hbody, hl⟩ := ih (hlines ▸ List.mem_cons_self)
          refine ⟨c :: body, by simp [hbody, Ne.symm hc], ?_⟩
          rcases hl with rfl | rfl
          · exact .inl rfl
          · exact .inr rfl
        · exact ih (hlines ▸ List.mem_cons_of_mem _ h)

theorem exists_chomp_append (l : Text) : ∃ w, l = chomp l ++ w :=
  ⟨_, (List.rdropWhile_append_rtakeWhile (p := fun c => c == '\n' || c == '\r') (l := l)).symm⟩

theorem not_mem_chomp {t l : Text} (h : l ∈ lines t) : '\n' ∉ chomp l := by
  obtain ⟨body, hbody, hl⟩ := exists_of_mem_lines h
  have hchomp : chomp l = chomp body := by
    rcases hl with rfl | rfl
    · rfl
    · simp [chomp]
  obtain ⟨w, hw⟩ := exists_chomp_append body
  rw [hchomp]
  intro hmem
  apply hbody
  rw [hw]
  exact List.mem_append_left _ hmem

theorem ne_nil_of_mem_lines {t l : Text} (h : l ∈ lines t) : l ≠ [] := by
  induction t generalizing l with
  | nil => simp [lines] at h
  | cons c t ih =>
    rw [lines] at h
    split at h
    · rcases List.mem_cons.mp h with rfl | h
      · simp
      · exact ih h
    · split at h
      · simp_all
      · rename_i hlines
        rcases List.mem_cons.mp h with rfl | h
        · simp
        · exact ih (hlines ▸ List.mem_cons_of_mem _ h)

/-- Texts that stand one behind another as the lines of a text. -/
structure AreLines (ls : List Text) : Prop where
  ne_nil : ∀ l ∈ ls, l ≠ []
  one_line : ∀ l ∈ ls, '\n' ∉ chomp l
  breaks : ∀ l ∈ ls.dropLast, ∃ body, l = body ++ ['\n']

theorem AreLines.tail {l : Text} {ls : List Text} (h : AreLines (l :: ls)) : AreLines ls := by
  refine ⟨fun m hm => h.ne_nil m (by simp [hm]), fun m hm => h.one_line m (by simp [hm]),
    fun m hm => h.breaks m ?_⟩
  have hls : ls ≠ [] := by
    rintro rfl
    simp at hm
  rw [List.dropLast_cons_of_ne_nil hls]
  exact List.mem_cons_of_mem _ hm

/-- Each line but the last ends with a line feed. -/
theorem exists_of_mem_dropLast_lines {t l : Text} (h : l ∈ (lines t).dropLast) :
    ∃ body, l = body ++ ['\n'] := by
  induction t generalizing l with
  | nil => simp [lines] at h
  | cons c t ih =>
    rw [lines] at h
    split at h
    · rename_i hc
      by_cases hnil : lines t = []
      · simp [hnil] at h
      · rw [List.dropLast_cons_of_ne_nil hnil] at h
        rcases List.mem_cons.mp h with rfl | h
        · exact ⟨[], by simp [hc]⟩
        · exact ih h
    · split at h
      · simp at h
      · rename_i l' ls hlines
        rw [hlines] at ih
        by_cases hnil : ls = []
        · simp [hnil] at h
        · rw [List.dropLast_cons_of_ne_nil hnil] at h ih
          rcases List.mem_cons.mp h with rfl | h
          · obtain ⟨body, rfl⟩ := ih List.mem_cons_self
            exact ⟨c :: body, rfl⟩
          · exact ih (List.mem_cons_of_mem _ h)

theorem areLines_lines (t : Text) : AreLines (lines t) :=
  ⟨fun _ => ne_nil_of_mem_lines, fun _ => not_mem_chomp, fun _ => exists_of_mem_dropLast_lines⟩

/-- What stands between the text of a line and the line feed at its end. -/
theorem exists_chomp_of_break (body : Text) :
    ∃ w, body ++ ['\n'] = chomp (body ++ ['\n']) ++ w ++ ['\n'] := by
  obtain ⟨w, hw⟩ := exists_chomp_append body
  have hchomp : chomp (body ++ ['\n']) = chomp body := by simp [chomp]
  exact ⟨w, by rw [hchomp, ← hw]⟩

end Text

namespace LineTable

variable {table : LineTable} {offset k : ℕ}

/-- Bisection keeps the first line that ends behind the offset between `base` and the end of the
candidates. -/
theorem bisect_spec (hends : ∀ i < table.ends.size, table.endsBy offset i = true ↔ i < k)
    (base size : ℕ) (hpos : 0 < size) (hsize : base + size ≤ table.ends.size)
    (hbase : base = 0 ∨ base < k) (hk : k ≤ base + size) :
    table.bisect offset base size < table.ends.size ∧
      (table.bisect offset base size = 0 ∨ table.bisect offset base size < k) ∧
      k ≤ table.bisect offset base size + 1 := by
  induction size using Nat.strong_induction_on generalizing base with
  | _ size ih =>
    rw [bisect]
    by_cases hone : size ≤ 1
    · rw [dif_pos hone]
      exact ⟨by omega, hbase, by omega⟩
    · rw [dif_neg hone]
      have hmiddle := hends (base + size / 2) (by omega)
      dsimp only
      split
      · rename_i h
        have hlt := hmiddle.mp h
        exact ih _ (by omega) _ (by omega) (by omega) (.inr hlt) (by omega)
      · rename_i h
        have hle : k ≤ base + size / 2 := by
          by_contra hlt
          exact h (hmiddle.mpr (by omega))
        exact ih _ (by omega) _ (by omega) (by omega) hbase (by omega)

/-- The lines that end by the offset come first, and their number is the index found. -/
theorem lineIndex_eq (hk : k ≤ table.ends.size)
    (hends : ∀ i < table.ends.size, table.endsBy offset i = true ↔ i < k) :
    table.lineIndex offset = k := by
  unfold lineIndex
  by_cases hempty : table.ends.isEmpty = true
  · have hzero : table.ends.size = 0 := by simpa using hempty
    rw [if_pos hempty]
    omega
  · have hpos : 0 < table.ends.size := by
      simp only [Array.isEmpty_iff_size_eq_zero] at hempty
      omega
    obtain ⟨hlt, hbelow, habove⟩ :=
      bisect_spec hends 0 table.ends.size hpos (by omega) (.inl rfl) (by omega)
    have hfound := hends _ hlt
    rw [if_neg hempty]
    dsimp only
    split
    · rename_i h
      have := hfound.mp h
      omega
    · rename_i h
      have hle : k ≤ table.bisect offset 0 table.ends.size := by
        by_contra hgt
        exact h (hfound.mpr (by omega))
      omega

/-- In an increasing list the entries up to a bound come first. -/
theorem getElem_le_iff {l : List ℕ} (hl : l.Pairwise (· ≤ ·)) {i : ℕ} (hi : i < l.length) :
    l[i] ≤ offset ↔ i < l.countP (· ≤ offset) := by
  induction l generalizing i with
  | nil => simp at hi
  | cons e l ih =>
    obtain ⟨hle, hl⟩ := List.pairwise_cons.mp hl
    by_cases he : e ≤ offset
    · rw [List.countP_cons_of_pos (by simpa using he)]
      cases i with
      | zero => simp [he]
      | succ i => simpa using ih hl (Nat.lt_of_succ_lt_succ hi)
    · have hzero : (e :: l).countP (· ≤ offset) = 0 := by
        rw [List.countP_eq_zero]
        intro x hx
        rcases List.mem_cons.mp hx with rfl | hx
        · simpa using he
        · have := hle x hx
          simp only [decide_eq_true_eq]
          omega
      have hget : e ≤ (e :: l)[i] := by
        cases i with
        | zero => exact le_rfl
        | succ i => exact hle _ (List.getElem_mem _)
      rw [hzero]
      omega

/-- The bisection of increasing ends, some of which may be equal, counts those up to the offset. -/
theorem lineIndex_eq_countP (h : table.ends.toList.Pairwise (· ≤ ·)) (offset : ℕ) :
    table.lineIndex offset = table.ends.toList.countP (· ≤ offset) := by
  apply lineIndex_eq
  · exact List.countP_le_length
  · intro i hi
    have hlt : i < table.ends.toList.length := hi
    rw [← getElem_le_iff h hlt]
    simp [endsBy, hi]

theorem lineIndex_mono (h : table.ends.toList.Pairwise (· ≤ ·)) : Monotone table.lineIndex := by
  intro offset offset' hle
  rw [lineIndex_eq_countP h, lineIndex_eq_countP h]
  apply List.countP_mono_left
  intro e _ he
  simp only [decide_eq_true_eq] at he ⊢
  exact he.trans hle

theorem le_of_mem_endsFrom {start e : ℕ} {ls : List Text} (h : e ∈ endsFrom start ls) :
    start ≤ e := by
  induction ls generalizing start with
  | nil => simp [endsFrom] at h
  | cons l ls ih =>
    rcases List.mem_cons.mp h with rfl | h
    · omega
    · have := ih h
      omega

theorem pairwise_endsFrom (start : ℕ) (ls : List Text) :
    (endsFrom start ls).Pairwise (· ≤ ·) := by
  induction ls generalizing start with
  | nil => exact .nil
  | cons l ls ih => exact .cons (fun _ => le_of_mem_endsFrom) (ih _)

theorem lineNumber_ofText (t : Text) (offset : ℕ) :
    (ofText t).lineNumber offset = (endsFrom 0 (Text.lines t)).countP (· ≤ offset) + 1 := by
  rw [lineNumber, lineIndex_eq_countP (pairwise_endsFrom 0 _)]
  rfl

/-- The line ends of a text, character by character. -/
theorem endsFrom_lines_cons (start : ℕ) (c : Char) (t : Text) :
    endsFrom start (Text.lines (c :: t)) =
      if c = '\n' ∨ t = [] then
        (start + c.utf8Size) :: endsFrom (start + c.utf8Size) (Text.lines t)
      else endsFrom (start + c.utf8Size) (Text.lines t) := by
  rw [Text.lines]
  by_cases hc : c = '\n'
  · simp [hc, endsFrom]
  · rw [if_neg hc]
    cases t with
    | nil => simp [Text.lines, endsFrom]
    | cons d t =>
      cases hl : Text.lines (d :: t) with
      | nil =>
        have hflat := Text.flatten_lines (d :: t)
        simp [hl] at hflat
      | cons l ls => simp [hc, endsFrom, Nat.add_assoc]

theorem lt_of_mem_endsFrom_lines {start e : ℕ} {t : Text}
    (h : e ∈ endsFrom start (Text.lines t)) : start < e := by
  cases t with
  | nil => simp [Text.lines, endsFrom] at h
  | cons c t =>
    have hpos := c.utf8Size_pos
    have hle : start + c.utf8Size ≤ e := by
      rw [endsFrom_lines_cons] at h
      split at h
      · rcases List.mem_cons.mp h with rfl | h
        · exact le_rfl
        · exact le_of_mem_endsFrom h
      · exact le_of_mem_endsFrom h
    omega

/-- The lines that end before a character are those whose line feeds stand in front of it. -/
theorem countP_endsFrom_lines (start : ℕ) (before : Text) (c : Char) (after : Text) :
    (endsFrom start (Text.lines (before ++ c :: after))).countP
      (· ≤ start + Text.byteLength before) = before.count '\n' := by
  induction before generalizing start with
  | nil =>
    rw [List.count_nil, List.countP_eq_zero]
    intro e he
    have := lt_of_mem_endsFrom_lines he
    simpa using this
  | cons d before ih =>
    have hne : before ++ c :: after ≠ [] := by simp
    rw [List.cons_append, endsFrom_lines_cons, Text.byteLength_cons, ← Nat.add_assoc]
    by_cases hd : d = '\n'
    · rw [if_pos (.inl hd), List.countP_cons_of_pos (by simp), ih, hd, List.count_cons_self]
    · rw [if_neg (by simp [hd]), ih, List.count_cons_of_ne hd]

/-- The line of a character is one more than the line feeds in front of it. -/
theorem lineNumber_eq (before : Text) (c : Char) (after : Text) :
    (ofText (before ++ c :: after)).lineNumber (Text.byteLength before) =
      1 + before.count '\n' := by
  have hcount := countP_endsFrom_lines 0 before c after
  rw [Nat.zero_add] at hcount
  rw [lineNumber_ofText, hcount, Nat.add_comm]

theorem byteLength_mem_endsFrom (start : ℕ) {ls : List Text} (hls : ls ≠ []) :
    start + Text.byteLength ls.flatten ∈ endsFrom start ls := by
  induction ls generalizing start with
  | nil => exact absurd rfl hls
  | cons l ls ih =>
    rw [endsFrom, List.flatten_cons, Text.byteLength_append, ← Nat.add_assoc]
    by_cases hnil : ls = []
    · simp [hnil]
    · exact List.mem_cons_of_mem _ (ih _ hnil)

/-- The last line ends behind every offset in the text. -/
theorem lineNumber_le_lineCount {t : Text} {o : ℕ} (h : o < Text.byteLength t) :
    (ofText t).lineNumber o ≤ (ofText t).lineCount := by
  have hlines : Text.lines t ≠ [] := by
    intro hnil
    have hflat := Text.flatten_lines t
    rw [hnil, List.flatten_nil] at hflat
    simp [← hflat] at h
  have hlast := byteLength_mem_endsFrom 0 hlines
  rw [Text.flatten_lines, Nat.zero_add] at hlast
  have hlt : (endsFrom 0 (Text.lines t)).countP (· ≤ o) < (endsFrom 0 (Text.lines t)).length := by
    refine lt_of_le_of_ne List.countP_le_length fun heq => ?_
    have hle := List.countP_eq_length.mp heq _ hlast
    simp only [decide_eq_true_eq] at hle
    omega
  rw [lineNumber_ofText]
  simpa [lineCount, ofText] using hlt

theorem lineNumber_mono (t : Text) {o o' : ℕ} (h : o ≤ o') :
    (ofText t).lineNumber o ≤ (ofText t).lineNumber o' :=
  Nat.add_le_add_right (lineIndex_mono (pairwise_endsFrom 0 _) h) 1

end LineTable
end ProseLint
