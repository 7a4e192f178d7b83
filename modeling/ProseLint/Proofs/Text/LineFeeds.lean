import ProseLint.Proofs.Text.Lines
import ProseLint.Report.Sink

/-!
# Line feeds among bytes

In UTF-8 a line feed is one byte, and no other character has this byte in its code. So the line of
any offset into the bytes of a text, be it inside a character, is told by the line feeds among the
bytes in front of it.
-/
namespace ProseLint
open Report (utf8)

/-- The byte of a line feed. -/
def lineFeed : UInt8 := 10

theorem ofNat_ne_lineFeed {n : ℕ} (hn : 128 ≤ n) (hlt : n < 256) : UInt8.ofNat n ≠ lineFeed := by
  intro h
  have hnat := congrArg UInt8.toNat h
  rw [UInt8.toNat_ofNat_of_lt' hlt] at hnat
  simp only [lineFeed, UInt8.reduceToNat] at hnat
  omega

theorem count_utf8EncodeChar (c : Char) :
    (String.utf8EncodeChar c).count lineFeed = if c = '\n' then 1 else 0 := by
  by_cases hascii : c.val.toNat ≤ 127
  · have hbyte : UInt8.ofNat c.val.toNat = lineFeed ↔ c = '\n' := by
      rw [← UInt8.toNat_inj, UInt8.toNat_ofNat_of_lt' (by simp only [UInt8.size]; omega),
        ← Char.toNat_inj]
      rfl
    rw [String.utf8EncodeChar, if_pos hascii, List.count_singleton]
    simp only [beq_iff_eq, hbyte]
  · -- No byte of a longer code is below 128.
    have hne : c ≠ '\n' := by
      rintro rfl
      exact hascii (by decide)
    have hbytes : ∀ b ∈ String.utf8EncodeChar c, b ≠ lineFeed := by
      rw [String.utf8EncodeChar, if_neg hascii]
      split_ifs <;> simp only [List.forall_mem_cons, List.not_mem_nil, false_implies,
        implies_true, and_true] <;> and_intros <;>
        exact ofNat_ne_lineFeed (by omega) (by omega)
    rw [if_neg hne, List.count_eq_zero]
    exact fun hmem => hbytes _ hmem rfl

theorem utf8_cons (c : Char) (t : Text) : utf8 (c :: t) = String.utf8EncodeChar c ++ utf8 t := rfl

theorem length_utf8 (t : Text) : (utf8 t).length = Text.byteLength t := by
  induction t with
  | nil => rfl
  | cons c t ih =>
    rw [utf8_cons, List.length_append, ih, String.length_utf8EncodeChar, Text.byteLength_cons]

namespace LineTable

/-- The lines that end by an offset in a text are those whose line feeds are among the bytes in
front of it. -/
theorem countP_endsFrom_utf8 {start offset : ℕ} {t : Text} (hle : start ≤ offset)
    (hlt : offset < start + (utf8 t).length) :
    (endsFrom start (Text.lines t)).countP (· ≤ offset) =
      ((utf8 t).take (offset - start)).count lineFeed := by
  induction t generalizing start with
  | nil => exact absurd hlt (by simpa [utf8] using hle)
  | cons c t ih =>
    have hsize : (String.utf8EncodeChar c).length = c.utf8Size := String.length_utf8EncodeChar c
    rw [utf8_cons, List.length_append, hsize] at hlt
    rw [utf8_cons, List.take_append, List.count_append, hsize]
    by_cases hinside : offset < start + c.utf8Size
    · -- The offset is inside the first character: no line has ended, and if the character is a
      -- line feed no byte of it is in front of the offset.
      have hends : (endsFrom start (Text.lines (c :: t))).countP (· ≤ offset) = 0 := by
        rw [List.countP_eq_zero]
        intro e he
        have hle : start + c.utf8Size ≤ e := by
          rw [endsFrom_lines_cons] at he
          split at he
          · rcases List.mem_cons.mp he with rfl | he
            · exact le_rfl
            · exact le_of_mem_endsFrom he
          · exact le_of_mem_endsFrom he
        simp only [decide_eq_true_eq]
        omega
      have hbytes : ((String.utf8EncodeChar c).take (offset - start)).count lineFeed = 0 := by
        by_cases hc : c = '\n'
        · subst hc
          have hone : '\n'.utf8Size = 1 := rfl
          have hzero : offset - start = 0 := by omega
          rw [hzero, List.take_zero, List.count_nil]
        · have hnone := count_utf8EncodeChar c
          rw [if_neg hc] at hnone
          exact Nat.eq_zero_of_le_zero (hnone ▸ (List.take_sublist _ _).count_le lineFeed)
      have hrest : offset - start - c.utf8Size = 0 := by omega
      rw [hends, hbytes, hrest, List.take_zero, List.count_nil]
    · have hrest : (endsFrom (start + c.utf8Size) (Text.lines t)).countP (· ≤ offset) =
          ((utf8 t).take (offset - (start + c.utf8Size))).count lineFeed :=
        ih (by omega) (by omega)
      have hne : t ≠ [] := by
        rintro rfl
        simp only [utf8, List.flatMap_nil, List.length_nil] at hlt
        omega
      have htake : (String.utf8EncodeChar c).take (offset - start) = String.utf8EncodeChar c :=
        List.take_of_length_le (by omega)
      rw [endsFrom_lines_cons, htake, count_utf8EncodeChar, Nat.sub_sub, ← hrest]
      by_cases hc : c = '\n'
      · rw [if_pos (.inl hc), if_pos hc, List.countP_cons_of_pos (by simpa using by omega),
          Nat.add_comm]
      · rw [if_neg (by simp [hc, hne]), if_neg hc, Nat.zero_add]

/-- No line ends behind the text. -/
theorem countP_endsFrom_of_le {start offset : ℕ} {ls : List Text}
    (hle : start + Text.byteLength ls.flatten ≤ offset) :
    (endsFrom start ls).countP (· ≤ offset) = ls.length := by
  induction ls generalizing start with
  | nil => rfl
  | cons l ls ih =>
    rw [List.flatten_cons, Text.byteLength_append, ← Nat.add_assoc] at hle
    rw [endsFrom, List.countP_cons_of_pos (by simpa using by omega), ih hle, List.length_cons]

theorem lineCount_ofText (t : Text) : (ofText t).lineCount = (Text.lines t).length := by
  have hlength : ∀ start ls, (endsFrom start ls).length = ls.length := by
    intro start ls
    induction ls generalizing start with
    | nil => rfl
    | cons l ls ih => rw [endsFrom, List.length_cons, ih, List.length_cons]
  simp [lineCount, ofText, hlength]

/-- Before the end of a text the line of an offset is one more than the line feeds among the bytes
in front of it, from there on one more than the lines of the text. In a table of any increasing ends
the index of an offset is the number of ends up to it, so it increases with the offset. -/
theorem lineNumber_counts :
    (∀ (t : Text) (offset : ℕ), offset < (utf8 t).length →
      (ofText t).lineNumber offset = 1 + ((utf8 t).take offset).count lineFeed) ∧
    (∀ (t : Text) (offset : ℕ), (utf8 t).length ≤ offset →
      (ofText t).lineNumber offset = (ofText t).lineCount + 1) ∧
    ∀ table : LineTable, table.ends.toList.Pairwise (· ≤ ·) →
      (∀ offset, table.lineIndex offset = table.ends.toList.countP (· ≤ offset)) ∧
        Monotone table.lineIndex := by
  refine ⟨fun t offset hlt => ?_, fun t offset hle => ?_, fun table h => ⟨?_, ?_⟩⟩
  · have hcount := countP_endsFrom_utf8 (Nat.zero_le offset) (by simpa using hlt)
    rw [lineNumber_ofText, hcount, Nat.sub_zero, Nat.add_comm]
  · have hall : 0 + Text.byteLength (Text.lines t).flatten ≤ offset := by
      rwa [Text.flatten_lines, Nat.zero_add, ← length_utf8]
    rw [lineNumber_ofText, countP_endsFrom_of_le hall, lineCount_ofText]
  · exact lineIndex_eq_countP h
  · exact lineIndex_mono h

/-- An offset behind a character of two bytes and an empty line, the end of the text, and a table in
which lines end where they start. -/
theorem lineNumber_counts_of_repeated_ends :
    let t := "é\n\nz".toList
    let table : LineTable := ⟨#[0, 2, 2, 5]⟩
    (4 < (utf8 t).length ∧ (ofText t).lineNumber 4 = 1 + ((utf8 t).take 4).count lineFeed ∧
      ((utf8 t).take 4).count lineFeed = 2) ∧
    ((utf8 t).length ≤ 5 ∧ (ofText t).lineNumber 5 = (ofText t).lineCount + 1) ∧
    table.ends.toList.Pairwise (· ≤ ·) ∧
      (∀ offset, table.lineIndex offset = table.ends.toList.countP (· ≤ offset)) ∧
      Monotone table.lineIndex := by
  intro t table
  have hbefore : 4 < (utf8 t).length := by decide
  have hbehind : (utf8 t).length ≤ 5 := by decide
  have hends : table.ends.toList.Pairwise (· ≤ ·) := by decide
  obtain ⟨hinside, houtside, htable⟩ := lineNumber_counts
  exact ⟨⟨hbefore, hinside t 4 hbefore, by decide⟩, ⟨hbehind, houtside t 5 hbehind⟩, hends,
    htable table hends⟩

end LineTable
end ProseLint
