import ProseLint.Proofs.Report.JsonReader
import ProseLint.Proofs.Report.Output

/-!
# Reading a JSON report back

A report in JSON is an array of objects, one for each finding. Its fields are found by their names;
a file or a sentence that is not there has no field, so a file without a name is not the same as no
file. From the bytes that a writer has written, the findings are read back as they were.
-/
namespace ProseLint.Report.Json

namespace Value

def text? : Value → Option Text
  | string t => some t
  | _ => none

def number? : Value → Option ℕ
  | number n => some n
  | _ => none

def boolean? : Value → Option Bool
  | boolean b => some b
  | _ => none

def items? : Value → Option (List Value)
  | array items => some items
  | _ => none

/-- The value of the field with a name. -/
def get? (name : String) : Value → Option Value
  | object fields => fields.lookup name.toList
  | _ => none

end Value

/-- The sentence that an object describes. -/
def sentence? (v : Value) : Option Sentence := do
  let content ← (← v.get? "content").text?
  let line ← (← v.get? "line").number?
  let isFirst ← (← v.get? "is_first_sentence").boolean?
  let links ← (← (← v.get? "links").items?).mapM Value.text?
  return { content := content, line := line, isFirst := isFirst, links := links }

/-- A field that may be missing, but has a meaning when it is there. -/
def optional? {α : Type} (read? : Value → Option α) : Option Value → Option (Option α)
  | none => some none
  | some v => (read? v).map some

/-- The finding that an object describes. -/
def finding? (v : Value) : Option Finding := do
  let validator ← (← v.get? "validator").text?
  let message ← (← v.get? "message").text?
  let file ← optional? Value.text? (v.get? "file")
  let line ← (← v.get? "line").number?
  let sentence ← optional? sentence? (v.get? "sentence")
  return { validator := validator, message := message, file := file, line := line,
           sentence := sentence }

/-- The findings of a JSON report. -/
def findings? (bytes : List UInt8) : Option (List Finding) := do
  let chars ← (bytes.toByteArray).utf8Decode?
  let items ← (← read? chars.toList).items?
  items.mapM finding?

def sentenceValue (s : Sentence) : Value :=
  .object [("content".toList, .string s.content), ("line".toList, .number s.line),
    ("is_first_sentence".toList, .boolean s.isFirst),
    ("links".toList, .array (s.links.map .string))]

def findingValue (f : Finding) : Value :=
  .object ([("validator".toList, .string f.validator), ("message".toList, .string f.message)] ++
    (f.file.toList.map fun file => ("file".toList, .string file)) ++
    [("line".toList, .number f.line)] ++
    f.sentence.toList.map fun s => ("sentence".toList, sentenceValue s))

theorem mapM_map_of_forall {α β : Type} {f : α → β} {g : β → Option α}
    (h : ∀ a, g (f a) = some a) (xs : List α) : (xs.map f).mapM g = some xs := by
  induction xs with
  | nil => rfl
  | cons x xs ih => simp [h, ih]

theorem sentence?_sentenceValue (s : Sentence) : sentence? (sentenceValue s) = some s := by
  have hlinks : (s.links.map Value.string).mapM Value.text? = some s.links :=
    mapM_map_of_forall (f := Value.string) (fun _ => rfl) s.links
  have hget : (sentenceValue s).get? "content" = some (.string s.content) ∧
      (sentenceValue s).get? "line" = some (.number s.line) ∧
      (sentenceValue s).get? "is_first_sentence" = some (.boolean s.isFirst) ∧
      (sentenceValue s).get? "links" = some (.array (s.links.map .string)) :=
    ⟨rfl, rfl, rfl, rfl⟩
  obtain ⟨hcontent, hline, hfirst, hlinks'⟩ := hget
  simp [sentence?, hcontent, hline, hfirst, hlinks', Value.text?, Value.number?, Value.boolean?,
    Value.items?, hlinks]

theorem get?_findingValue (f : Finding) :
    (findingValue f).get? "validator" = some (.string f.validator) ∧
      (findingValue f).get? "message" = some (.string f.message) ∧
      (findingValue f).get? "file" = f.file.map .string ∧
      (findingValue f).get? "line" = some (.number f.line) ∧
      (findingValue f).get? "sentence" = f.sentence.map sentenceValue := by
  obtain ⟨validator, message, file, line, sentence⟩ := f
  cases file <;> cases sentence <;> exact ⟨rfl, rfl, rfl, rfl, rfl⟩

theorem finding?_findingValue (f : Finding) : finding? (findingValue f) = some f := by
  obtain ⟨hvalidator, hmessage, hfile, hline, hsentence⟩ := get?_findingValue f
  have hfile' : optional? Value.text? (f.file.map .string) = some f.file := by
    cases f.file <;> rfl
  have hsentence' : optional? sentence? (f.sentence.map sentenceValue) = some f.sentence := by
    cases f.sentence with
    | none => rfl
    | some s => simp [optional?, sentence?_sentenceValue]
  simp [finding?, hvalidator, hmessage, hfile, hline, hsentence, hfile', hsentence', Value.text?,
    Value.number?]

theorem denotes_jsonSentence (s : Sentence) : Denotes (jsonSentence s) (sentenceValue s) := by
  have hlinks : List.Forall₂ Denotes (s.links.map string) (s.links.map .string) := by
    rw [List.forall₂_map_left_iff, List.forall₂_map_right_iff, List.forall₂_same]
    exact fun t _ => denotes_string t
  exact denotes_object ["content", "line", "is_first_sentence", "links"] rfl (by decide)
    (.cons (denotes_string _) (.cons (denotes_number _) (.cons (denotes_boolean _)
      (.cons (denotes_array_compact hlinks) .nil))))

theorem denotes_jsonEntry (f : Finding) : Denotes (jsonEntry f) (findingValue f) := by
  obtain ⟨validator, message, file, line, sentence⟩ := f
  cases file with
  | none =>
    cases sentence with
    | none =>
      exact denotes_object ["validator", "message", "line"] rfl (by decide)
        (.cons (denotes_string _) (.cons (denotes_string _) (.cons (denotes_number _) .nil)))
    | some s =>
      exact denotes_object ["validator", "message", "line", "sentence"] rfl (by decide)
        (.cons (denotes_string _) (.cons (denotes_string _) (.cons (denotes_number _)
          (.cons (denotes_jsonSentence s) .nil))))
  | some file =>
    cases sentence with
    | none =>
      exact denotes_object ["validator", "message", "file", "line"] rfl (by decide)
        (.cons (denotes_string _) (.cons (denotes_string _) (.cons (denotes_string _)
          (.cons (denotes_number _) .nil))))
    | some s =>
      exact denotes_object ["validator", "message", "file", "line", "sentence"] rfl (by decide)
        (.cons (denotes_string _) (.cons (denotes_string _) (.cons (denotes_string _)
          (.cons (denotes_number _) (.cons (denotes_jsonSentence s) .nil)))))

/-- A report in JSON is an array, spread over lines. -/
theorem denotes_report (fs : List Finding) :
    ∃ t, body .json fs ++ ending .json fs = t ++ ['\n'] ∧
      Denotes t (.array (fs.map findingValue)) := by
  have hnewline : Spaces ['\n'] := by simp [Spaces, isSpace]
  have hend : Spaces (if fs = [] then [] else ['\n']) := by
    split
    · exact spaces_nil
    · exact hnewline
  have hentries : List.Forall₂ Denotes (fs.map jsonEntry) (fs.map findingValue) := by
    rw [List.forall₂_map_left_iff, List.forall₂_map_right_iff, List.forall₂_same]
    exact fun f _ => denotes_jsonEntry f
  refine ⟨_, ?_, denotes_array hentries hnewline hnewline hend⟩
  simp [body, ending, between, Writer.lineOf, Format.header?, Format.footer?, Format.separator?,
    entry]

/-- A JSON report gives back the findings that it was written from, with all that they say. -/
theorem findings_of_json_report (fs : List Finding) (n : ℕ) :
    findings? ((Writer.distributor .json).after (Call.session fs)
      { sink := {}, reported := n }).sink.written = some fs := by
  obtain ⟨t, htext, hdenotes⟩ := denotes_report fs
  have hwritten := Writer.written_session .json none n fs
  have hread : read? (t ++ ['\n']) = some (.array (fs.map findingValue)) :=
    read?_of_denotes hdenotes (by simp [Spaces, isSpace])
  simp only [Sink.kept, htext] at hwritten
  rw [hwritten]
  generalize t ++ ['\n'] = report at hread
  simp [findings?, utf8Decode?_utf8, hread, Value.items?,
    mapM_map_of_forall finding?_findingValue]

end ProseLint.Report.Json
