import ProseLint.Parse
import ProseLint.Proofs.Markup.Reading

/-!
# Line breaks

A wiki text and a plain text are known by their lines, with the line feeds and carriage returns at
their ends taken off. Other breaks between the same lines move all that follows to other offsets,
but every leaf stays on its line, so they give the same document and the same diagnostics.
-/
namespace ProseLint

namespace Text

/-- The text with a carriage return put before each line feed. -/
def crlf (t : Text) : Text := t.flatMap fun c => if c = '\n' then ['\r', '\n'] else [c]

@[simp] theorem crlf_nil : crlf [] = [] := rfl

@[simp] theorem crlf_cons (c : Char) (t : Text) :
    crlf (c :: t) = (if c = '\n' then ['\r', '\n'] else [c]) ++ crlf t := rfl

@[simp] theorem crlf_append (s t : Text) : crlf (s ++ t) = crlf s ++ crlf t := by simp [crlf]

theorem crlf_eq_self {t : Text} (h : '\n' ∉ t) : crlf t = t := by
  induction t with
  | nil => rfl
  | cons c t ih =>
    simp only [List.mem_cons, not_or] at h
    rw [crlf_cons, if_neg (Ne.symm h.1), ih h.2, List.singleton_append]

/-- The lines stay the same lines. -/
theorem lines_crlf (t : Text) : lines (crlf t) = (lines t).map crlf := by
  induction t with
  | nil => rfl
  | cons c t ih =>
    by_cases hc : c = '\n'
    · simp [hc, lines, ih]
    · rw [crlf_cons, if_neg hc, List.singleton_append, lines, lines, if_neg hc, if_neg hc, ih]
      cases lines t <;> simp [hc]

theorem chomp_crlf {t l : Text} (h : l ∈ lines t) : chomp (crlf l) = chomp l := by
  obtain ⟨body, hbody, rfl | rfl⟩ := exists_of_mem_lines h
  · rw [crlf_eq_self hbody]
  · rw [crlf_append, crlf_eq_self hbody]
    simp [chomp]

theorem map_chomp_lines_crlf (t : Text) :
    (lines (crlf t)).map chomp = (lines t).map chomp := by
  rw [lines_crlf, List.map_map]
  exact List.map_congr_left fun l hl => chomp_crlf hl

theorem byteLength_chomp_le (l : Text) : byteLength (chomp l) ≤ byteLength l := by
  obtain ⟨w, hw⟩ := exists_chomp_append l
  have hlength := congrArg byteLength hw
  rw [byteLength_append] at hlength
  omega

end Text

namespace LineTable

variable {t l : Text} {before after : List Text}

/-- The lines that end by an offset are those before the line that holds it. -/
theorem countP_endsFrom (before after : List Text) (start : ℕ) {d : ℕ}
    (hd : d < Text.byteLength l) : (endsFrom start (before ++ l :: after)).countP
      (· ≤ start + Text.byteLength before.flatten + d) = before.length := by
  induction before generalizing start with
  | nil =>
    rw [List.length_nil, List.countP_eq_zero, List.nil_append, endsFrom]
    intro e he
    have hle : start + Text.byteLength l ≤ e := by
      rcases List.mem_cons.mp he with rfl | he
      · exact le_rfl
      · exact le_of_mem_endsFrom he
    have hlt : start + d < e := by omega
    simpa using hlt
  | cons k before ih =>
    have hk : start + Text.byteLength k ≤
        start + Text.byteLength (k :: before).flatten + d := by
      rw [List.flatten_cons, Text.byteLength_append]
      omega
    have hrest := ih (start + Text.byteLength k)
    rw [List.cons_append, endsFrom, List.countP_cons_of_pos (by simpa using hk), List.length_cons,
      List.flatten_cons, Text.byteLength_append, ← Nat.add_assoc, hrest]

/-- Every offset in a line has the number of the line. -/
theorem lineNumber_of_lines (ht : Text.lines t = before ++ l :: after) {d : ℕ}
    (hd : d < Text.byteLength l) :
    (ofText t).lineNumber (Text.byteLength before.flatten + d) = before.length + 1 := by
  have hcount := countP_endsFrom before after 0 hd
  rw [Nat.zero_add] at hcount
  rw [lineNumber_ofText, ht, hcount]

/-- The break in front of a line belongs to the line before it. -/
theorem lineNumber_break (ht : Text.lines t = before ++ l :: after) :
    (ofText t).lineNumber (Text.byteLength before.flatten - 1) = max 1 before.length := by
  have hpos : ∀ k ∈ Text.lines t, 0 < Text.byteLength k := fun k hk =>
    Text.byteLength_pos (Text.ne_nil_of_mem_lines hk)
  rcases List.eq_nil_or_concat' before with rfl | ⟨init, k, rfl⟩
  · have hl := hpos l (by simp [ht])
    simpa using lineNumber_of_lines ht hl
  · have hk := hpos k (by simp [ht])
    have ht' : Text.lines t = init ++ k :: (l :: after) := by simpa using ht
    have hoffset : Text.byteLength (init ++ [k]).flatten - 1 =
        Text.byteLength init.flatten + (Text.byteLength k - 1) := by
      rw [List.flatten_append, List.flatten_singleton, Text.byteLength_append]
      omega
    rw [hoffset, lineNumber_of_lines ht' (by omega)]
    simp

end LineTable

namespace Parse

open Markup (SourceLine)

variable {text text' : Text}

/-- The same lines with other breaks agree in all that the readers look at. -/
theorem agrees_place {before before' ls ls' : List Text} (ht : Text.lines text = before ++ ls)
    (ht' : Text.lines text' = before' ++ ls') (hlength : before.length = before'.length)
    (hls : ls.map Text.chomp = ls'.map Text.chomp) :
    List.Forall₂
      (SourceLine.Agrees (LineTable.ofText text).lineNumber (LineTable.ofText text').lineNumber)
      (SourceLine.place (Text.byteLength before.flatten) ls)
      (SourceLine.place (Text.byteLength before'.flatten) ls') := by
  induction ls generalizing before before' ls' with
  | nil =>
    obtain rfl : ls' = [] := by simpa using hls.symm
    exact .nil
  | cons l ls ih =>
    cases ls' with
    | nil => simp at hls
    | cons l' ls' =>
      obtain ⟨hchomp, hrest⟩ := List.cons.inj hls
      refine .cons ⟨hchomp, fun d hd => ?_, ?_⟩ ?_
      · have hd' : d < Text.byteLength (Text.chomp l') := hchomp ▸ hd
        rw [LineTable.lineNumber_of_lines ht (hd.trans_le (Text.byteLength_chomp_le l)),
          LineTable.lineNumber_of_lines ht' (hd'.trans_le (Text.byteLength_chomp_le l')), hlength]
      · rw [SourceLine.joinerOffset, SourceLine.joinerOffset, LineTable.lineNumber_break ht,
          LineTable.lineNumber_break ht', hlength]
      · have hbefore : Text.lines text = (before ++ [l]) ++ ls := by simpa using ht
        have hbefore' : Text.lines text' = (before' ++ [l']) ++ ls' := by simpa using ht'
        simpa using ih hbefore hbefore' (by simpa using hlength) hrest

/-- A wiki text or plain text is known by its lines without their breaks. -/
theorem source_congr {format : InputFormat} (hformat : format = .wiki ∨ format = .plain)
    (T : Terminators) (name : Text)
    (h : (Text.lines text).map Text.chomp = (Text.lines text').map Text.chomp) :
    source format T name text = source format T name text' := by
  have hlines := agrees_place (List.nil_append _).symm (List.nil_append _).symm rfl h
  rw [List.flatten_nil, Text.byteLength_nil] at hlines
  rcases hformat with rfl | rfl
  · have hcompile := Markup.compile_congr (Markup.Wiki.read_congr hlines) T name
    simp only [source, tree, hcompile]
  · have hcompile := Markup.compile_congr (Markup.Plain.read_congr hlines) T name
    simp only [source, tree, hcompile]

/-- A carriage return before every line feed, whatever breaks were there before, changes neither the
document nor the diagnostics. -/
theorem source_crlf {format : InputFormat} (hformat : format = .wiki ∨ format = .plain)
    (T : Terminators) (name text : Text) :
    ∃ p, source format T name text = .ok p ∧ source format T name (Text.crlf text) = .ok p := by
  rw [source_congr hformat T name (Text.map_chomp_lines_crlf text)]
  rcases hformat with rfl | rfl <;> exact ⟨_, rfl, rfl⟩

/-- Line feeds alone and behind carriage returns, one of these inside a line and one at the end. -/
theorem source_crlf_of_mixed :
    let text := "h1. One\r\n\r\nIt *is\r so\nto* [x|y].\n\r\r\n* a\n** b\r".toList
    ∃ p, source .wiki .fullStop "a".toList text = .ok p ∧
      source .wiki .fullStop "a".toList (Text.crlf text) = .ok p :=
  source_crlf (.inl rfl) .fullStop "a".toList _

end Parse
end ProseLint
