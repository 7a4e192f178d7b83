import ProseLint.Proofs.Report.Output

/-!
# What an XML report tells apart

No text of a finding can pass for a tag: an escaped text holds no opening bracket, so it ends where
the closing tag begins, and an element that may be left out is known by the first letter of its
name. An entry is therefore read in one way only, whatever stands behind it, and so is a report.
-/
namespace ProseLint.Report

theorem escapeXml_cases (c : Char) :
    c = '&' ∧ escapeXml c = ['&', 'a', 'm', 'p', ';'] ∨
      c = '<' ∧ escapeXml c = ['&', 'l', 't', ';'] ∨
      c = '>' ∧ escapeXml c = ['&', 'g', 't', ';'] ∨
      c ≠ '&' ∧ c ≠ '<' ∧ escapeXml c = [c] := by
  unfold escapeXml
  by_cases hamp : c = '&'
  · simp [hamp]
  · by_cases hlt : c = '<'
    · simp [hlt]
    · by_cases hgt : c = '>' <;> simp [hamp, hlt, hgt]

/-- No escaped character is the beginning of another one. -/
theorem escapeXml_append_inj {c d : Char} {s t : Text}
    (h : escapeXml c ++ s = escapeXml d ++ t) : c = d ∧ s = t := by
  rcases escapeXml_cases c with ⟨rfl, hc⟩ | ⟨rfl, hc⟩ | ⟨rfl, hc⟩ | ⟨hc1, hc2, hc⟩ <;>
    rcases escapeXml_cases d with ⟨rfl, hd⟩ | ⟨rfl, hd⟩ | ⟨rfl, hd⟩ | ⟨hd1, hd2, hd⟩ <;>
    simp only [hc, hd, List.cons_append, List.nil_append, List.cons.injEq] at h
  all_goals grind

theorem escapeXml_append_ne (c : Char) (s t : Text) : escapeXml c ++ s ≠ '<' :: t := by
  rcases escapeXml_cases c with ⟨rfl, hc⟩ | ⟨rfl, hc⟩ | ⟨rfl, hc⟩ | ⟨hc1, hc2, hc⟩ <;> simp_all

/-- An escaped text ends where a tag begins. -/
theorem escaped_append_inj {s t rest rest' : Text}
    (h : s.flatMap escapeXml ++ '<' :: rest = t.flatMap escapeXml ++ '<' :: rest') :
    s = t ∧ rest = rest' := by
  induction s generalizing t with
  | nil =>
    cases t with
    | nil => simpa using h
    | cons d t =>
      rw [List.flatMap_cons, List.append_assoc] at h
      exact absurd h.symm (escapeXml_append_ne _ _ _)
  | cons c s ih =>
    cases t with
    | nil =>
      rw [List.flatMap_cons, List.append_assoc] at h
      exact absurd h (escapeXml_append_ne _ _ _)
    | cons d t =>
      rw [List.flatMap_cons, List.flatMap_cons, List.append_assoc, List.append_assoc] at h
      obtain ⟨rfl, htail⟩ := escapeXml_append_inj h
      obtain ⟨rfl, hrest⟩ := ih htail
      exact ⟨rfl, hrest⟩

variable {name : String} {s t rest rest' : Text}

theorem xmlElement_append_inj
    (h : xmlElement name s ++ rest = xmlElement name t ++ rest') : s = t ∧ rest = rest' := by
  have hopen : s.flatMap escapeXml ++ '<' :: ('/' :: name.toList ++ '>' :: rest) =
      t.flatMap escapeXml ++ '<' :: ('/' :: name.toList ++ '>' :: rest') := by
    simpa [xmlElement] using h
  obtain ⟨rfl, hclose⟩ := escaped_append_inj hopen
  exact ⟨rfl, by simpa using hclose⟩

/-- The second character of an element is the first letter of its name. -/
theorem second_xmlElement_append (hname : name.toList ≠ []) (t rest : Text) :
    (xmlElement name t ++ rest)[1]? = name.toList.head? := by
  cases hn : name.toList with
  | nil => exact absurd hn hname
  | cons c n => simp [xmlElement, hn]

theorem second_xmlElement?_append (hname : name.toList ≠ []) (t rest : Text) :
    (xmlElement? name t ++ rest)[1]? = if t = [] then rest[1]? else name.toList.head? := by
  unfold xmlElement?
  by_cases ht : t = []
  · simp [ht]
  · simp [ht, second_xmlElement_append hname]

/-- Whether an element has been left out is seen from the letter behind the next bracket. -/
theorem xmlElement?_append_inj (hname : name.toList ≠ [])
    (h : xmlElement? name s ++ rest = xmlElement? name t ++ rest')
    (hrest : rest[1]? ≠ name.toList.head?) (hrest' : rest'[1]? ≠ name.toList.head?) :
    s = t ∧ rest = rest' := by
  have hsecond := congrArg (fun u => u[1]?) h
  simp only [second_xmlElement?_append hname] at hsecond
  by_cases hs : s = [] <;> by_cases ht : t = []
  · simpa [xmlElement?, hs, ht] using h
  · rw [if_pos hs, if_neg ht] at hsecond
    exact absurd hsecond hrest
  · rw [if_neg hs, if_pos ht] at hsecond
    exact absurd hsecond.symm hrest'
  · exact xmlElement_append_inj (by simpa [xmlElement?, hs, ht] using h)

/-- The sentence of a finding, empty when there is none. -/
def sentenceText (f : Finding) : Text := (f.sentence.map (·.content)).getD []

/-- Two findings say the same in XML. No file is like a file without a name, and no sentence like an
empty one. -/
structure SaysSame (f g : Finding) : Prop where
  validator : f.validator = g.validator
  message : f.message = g.message
  file : f.fileName = g.fileName
  line : f.line = g.line
  sentence : sentenceText f = sentenceText g

theorem ofNat_injective {m n : ℕ} (h : Text.ofNat m = Text.ofNat n) : m = n := by
  have hdigits := congrArg (Nat.ofDigitChars 10 · 0) h
  simpa only [Text.ofNat, Nat.ofDigitChars_ten_toDigits] using hdigits

theorem xmlEntry_congr {f g : Finding} (h : SaysSame f g) : xmlEntry f = xmlEntry g := by
  obtain ⟨hvalidator, hmessage, hfile, hline, hsentence⟩ := h
  unfold sentenceText at hsentence
  unfold xmlEntry
  rw [hvalidator, hmessage, hfile, hline, hsentence]

/-- The elements of an entry one after another, with what stands behind the entry. -/
theorem xmlEntry_append (f : Finding) (rest : Text) : xmlEntry f ++ rest =
    "<error>".toList ++ (xmlElement "validator" f.validator ++ (xmlElement? "message" f.message ++
      (xmlElement? "file" f.fileName ++ (xmlElement "lineNum" (Text.ofNat f.line) ++
        (xmlElement? "sentence" (sentenceText f) ++ ("</error>".toList ++ rest)))))) := by
  unfold xmlEntry sentenceText
  simp only [List.append_assoc]

/-- An entry is read in one way only. -/
theorem xmlEntry_append_inj {f g : Finding} (h : xmlEntry f ++ rest = xmlEntry g ++ rest') :
    SaysSame f g ∧ rest = rest' := by
  have hend : ∀ r, ("</error>".toList ++ r)[1]? = some '/' := fun _ => rfl
  have hline : ∀ n r, (xmlElement "lineNum" n ++ r)[1]? = some 'l' := fun _ _ => rfl
  have hfile : ∀ t n r, (xmlElement? "file" t ++ (xmlElement "lineNum" n ++ r))[1]? ≠ some 'm' := by
    intro t n r
    rw [second_xmlElement?_append (by decide), hline]
    split <;> decide
  rw [xmlEntry_append, xmlEntry_append] at h
  have h := List.append_cancel_left h
  obtain ⟨hvalidator, h⟩ := xmlElement_append_inj h
  obtain ⟨hmessage, h⟩ := xmlElement?_append_inj (by decide) h (hfile _ _ _) (hfile _ _ _)
  obtain ⟨hname, h⟩ := xmlElement?_append_inj (by decide) h
    (by rw [hline]; decide) (by rw [hline]; decide)
  obtain ⟨hnumber, h⟩ := xmlElement_append_inj h
  obtain ⟨hsentence, h⟩ := xmlElement?_append_inj (by decide) h
    (by rw [hend]; decide) (by rw [hend]; decide)
  exact ⟨⟨hvalidator, hmessage, hname, ofNat_injective hnumber, hsentence⟩,
    List.append_cancel_left h⟩

theorem joinWith_append_last (sep : Text) (ts : List Text) :
    Text.joinWith sep ts ++ (if ts = [] then [] else sep) = ts.flatMap (· ++ sep) := by
  induction ts with
  | nil => rfl
  | cons t ts ih =>
    cases ts with
    | nil => simp [Text.joinWith]
    | cons u ts =>
      rw [Text.joinWith, List.flatMap_cons, ← ih]
      simp

/-- The entries stand on lines of their own, and the footer behind them. -/
theorem xml_report_eq (fs : List Finding) : body .xml fs ++ ending .xml fs =
    "<validation-result>\n".toList ++ (fs.flatMap (fun f => xmlEntry f ++ ['\n']) ++
      "</validation-result>\n".toList) := by
  have hlines := joinWith_append_last ['\n'] (fs.map xmlEntry)
  simp only [List.map_eq_nil_iff, List.flatMap_map] at hlines
  rw [← hlines, List.append_assoc, ← List.append_assoc, ← List.append_assoc, List.append_assoc]
  rfl

theorem xmlLines_append_inj {fs gs : List Finding}
    (h : fs.flatMap (fun f => xmlEntry f ++ ['\n']) ++ "</validation-result>\n".toList =
      gs.flatMap (fun f => xmlEntry f ++ ['\n']) ++ "</validation-result>\n".toList) :
    List.Forall₂ SaysSame fs gs := by
  -- the footer begins with another letter than an entry
  have hfooter : ∀ f r, "</validation-result>\n".toList ≠ xmlEntry f ++ ['\n'] ++ r := by
    intro f r hr
    rw [List.append_assoc, xmlEntry_append] at hr
    have hsecond : some '/' = some 'e' := congrArg (fun t => t[1]?) hr
    exact absurd hsecond (by decide)
  induction fs generalizing gs with
  | nil =>
    cases gs with
    | nil => exact .nil
    | cons g gs =>
      rw [List.flatMap_cons, List.append_assoc] at h
      exact absurd h (hfooter g _)
  | cons f fs ih =>
    cases gs with
    | nil =>
      rw [List.flatMap_cons, List.append_assoc] at h
      exact absurd h.symm (hfooter f _)
    | cons g gs =>
      simp only [List.flatMap_cons, List.append_assoc] at h
      obtain ⟨hsame, hrest⟩ := xmlEntry_append_inj h
      exact .cons hsame (ih (by simpa using hrest))

/-- Two XML reports are the same when the findings say the same, one by one, and only then. -/
theorem xml_report_eq_iff (fs gs : List Finding) (m n : ℕ) :
    ((Writer.distributor .xml).after (Call.session fs) { sink := {}, reported := m }).sink.written =
        ((Writer.distributor .xml).after (Call.session gs)
          { sink := {}, reported := n }).sink.written ↔
      List.Forall₂ SaysSame fs gs := by
  rw [Writer.written_session .xml none m fs, Writer.written_session .xml none n gs]
  simp only [Sink.kept, xml_report_eq]
  constructor
  · intro h
    exact xmlLines_append_inj (List.append_cancel_left (utf8_injective h))
  · intro h
    have hentries : fs.flatMap (fun f => xmlEntry f ++ ['\n']) =
        gs.flatMap (fun f => xmlEntry f ++ ['\n']) := by
      induction h with
      | nil => rfl
      | cons hsame _ ih => rw [List.flatMap_cons, List.flatMap_cons, xmlEntry_congr hsame, ih]
    rw [hentries]

end ProseLint.Report
