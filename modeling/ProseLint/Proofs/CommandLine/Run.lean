import Mathlib.Tactic
import ProseLint.Proofs.CommandLine.Arguments
import ProseLint.Proofs.Engine.Isolation

/-!
# Runs of the program

What a run shows is its standard output and its exit code. Both come from the findings of its
validators in the documents of its inputs, in order. An input without a document adds no finding,
and the way in which the documents are checked makes none appear or vanish.
-/
namespace ProseLint

namespace Validator

/-- The validator reports an error for a document: its rule fails on no unit of it and finds
something in one. -/
def Reports (v : Validator) (d : Document) : Prop :=
  ∃ parts : List (List Finding), v.verdicts d = parts.map .ok ∧ ∃ part ∈ parts, part ≠ []

theorem exists_error_or_parts (verdicts : List Verdict) :
    (∃ e, .error e ∈ verdicts) ∨ ∃ parts : List (List Finding), verdicts = parts.map .ok := by
  induction verdicts with
  | nil => exact .inr ⟨[], rfl⟩
  | cons verdict verdicts ih =>
    cases verdict with
    | error e => exact .inl ⟨e, .head _⟩
    | ok part =>
      obtain ⟨e, he⟩ | ⟨parts, rfl⟩ := ih
      · exact .inl ⟨e, .tail _ he⟩
      · exact .inr ⟨part :: parts, rfl⟩

end Validator

namespace Engine

theorem PairSpec.ne_nil_iff {v : Validator} {d : Document} {found : List Finding}
    (h : PairSpec v d found) : found ≠ [] ↔ v.Reports d := by
  obtain ⟨e, he⟩ | ⟨parts, hparts⟩ := Validator.exists_error_or_parts (v.verdicts d)
  · have hnone : ¬ v.Reports d := by
      rintro ⟨parts, hparts, -⟩
      simp [hparts] at he
    simp [h.of_failure e he, hnone]
  · have hreports : v.Reports d ↔ ∃ part ∈ parts, part ≠ [] := by
      constructor
      · rintro ⟨parts', hparts', hfound⟩
        rw [hparts] at hparts'
        rwa [List.map_injective_iff.mpr (fun _ _ => Except.ok.inj) hparts']
      · exact fun hfound => ⟨parts, hparts, hfound⟩
    rw [h.of_success parts hparts, hreports]
    simp [List.flatten_eq_nil_iff]

theorem findings_ne_nil_iff (vs : List Validator) (ds : List Document) :
    findings vs ds ≠ [] ↔ ∃ v ∈ vs, ∃ d ∈ ds, v.Reports d := by
  simp only [findings, ne_eq, List.flatMap_eq_nil_iff, not_forall, exists_prop,
    ← (checkPair_spec _ _).ne_nil_iff]

end Engine

namespace CommandLine

variable (args : Arguments) (files : File.Lookup)

/-- An input that cannot be read, is not UTF-8, or whose format is neither given nor told by its
extension. -/
inductive Unusable (format : Option InputFormat) (path : Text) : Prop
  | unreadable (reason : Text) (hread : files path = .error reason)
  | notText (bytes : ByteArray) (hread : files path = .ok bytes)
      (hbytes : File.decode? bytes = none)
  | unknownFormat (hgiven : format = none) (hpath : InputFormat.ofPath? path = none)

/-- The document of an input of the run. -/
inductive Parses (path : Text) : Document → Prop
  | intro (format : InputFormat) (bytes : ByteArray) (text : Text) (p : Parsed)
      (hformat : args.format = some format ∨
        args.format = none ∧ InputFormat.ofPath? path = some format)
      (hread : files path = .ok bytes) (htext : File.decode? bytes = some text)
      (hsource : Parse.source format (terminatorsOf args.terminators) path text = .ok p) :
      Parses path p.document

theorem parseInput_of_unusable {format : Option InputFormat} {path : Text}
    (h : Unusable files format path) (terminators : Terminators) :
    (parseInput files format terminators path).1 = none := by
  unfold parseInput
  cases hformat : format.or (InputFormat.ofPath? path) with
  | none => rfl
  | some f =>
    cases h with
    | unreadable reason hread => simp [Parse.file, hread]
    | notText bytes hread hbytes => simp [Parse.file, hread, hbytes]
    | unknownFormat hgiven hpath => simp [hgiven, hpath] at hformat

theorem parseInput_eq_some_iff (path : Text) (d : Document) :
    (parseInput files args.format (terminatorsOf args.terminators) path).1 = some d ↔
      Parses args files path d := by
  have hformat : ∀ f, args.format.or (InputFormat.ofPath? path) = some f ↔
      args.format = some f ∨ args.format = none ∧ InputFormat.ofPath? path = some f := fun f =>
    Option.or_eq_some_iff
  constructor
  · intro h
    unfold parseInput at h
    split at h
    · cases h
    · next f hf =>
      split at h
      · next p log hfile =>
        unfold Parse.file at hfile
        split at hfile
        · cases hfile
        · next bytes hread =>
          split at hfile
          · cases hfile
          · next text htext =>
            split at hfile
            · cases hfile
            · next p' hsource =>
              cases hfile
              cases h
              exact .intro f bytes text p ((hformat f).mp hf) hread htext hsource
      · cases h
  · rintro ⟨f, bytes, text, p, hf, hread, htext, hsource⟩
    simp [parseInput, (hformat f).mpr hf, Parse.file, hread, htext, hsource]

/-- The documents of a run, in the order of its inputs. -/
def documents : List Document :=
  args.inputs.filterMap fun path =>
    (parseInput files args.format (terminatorsOf args.terminators) path).1

theorem mem_documents_iff (d : Document) :
    d ∈ documents args files ↔ ∃ path ∈ args.inputs, Parses args files path d := by
  simp only [documents, List.mem_filterMap, parseInput_eq_some_iff]

/-- The configuration and the character table load, and the validators build. -/
def Prepared (vs : List Validator) : Prop :=
  ∃ configuration resources,
    (Configuration.loadFile args.configuration (files args.configuration)).1 = some configuration ∧
    (loadResources files args.characterTable).1 = .ok resources ∧
    (Registry.withBuiltins.configure configuration resources).1 = .ok vs

/-- Two outcomes agree in the standard output and in the exit code. -/
def Outcome.ShowsSame (o o' : Outcome) : Prop := o.output = o'.output ∧ o.exitCode = o'.exitCode

/-- The output of a run with some findings. -/
def output (format : Report.Format) (found : List Finding) : List UInt8 :=
  ((Report.Writer.distributor format).after (Call.session found) ⟨{}, 0⟩).sink.written

/-- The way of checking the documents does not show. -/
theorem report_eq (vs : List Validator) (ds : List Document) (log : List LogLine) :
    (report args vs ds log).output = output args.resultFormat (Engine.findings vs ds) ∧
      (report args vs ds log).exitCode = if (Engine.findings vs ds).isEmpty then 0 else 1 := by
  unfold report output
  cases args.parallel with
  | true =>
    obtain ⟨hfound, hstate⟩ :=
      @Engine.checkParallel_eq _ (Report.Writer.distributor args.resultFormat) vs ds ⟨{}, 0⟩
    simp [hfound, hstate]
  | false =>
    obtain ⟨hfound, hstate⟩ :=
      @Engine.check_eq _ (Report.Writer.distributor args.resultFormat) vs ds ⟨{}, 0⟩
    simp [hfound, hstate]

variable {args files}

theorem run_eq {vs : List Validator} (h : Prepared args files vs) :
    (run args files).output =
        output args.resultFormat (Engine.findings vs (documents args files)) ∧
      (run args files).exitCode =
        if (Engine.findings vs (documents args files)).isEmpty then 0 else 1 := by
  obtain ⟨configuration, resources, hconfiguration, hresources, hvalidators⟩ := h
  have hdocuments : (parseInputs files args.format (terminatorsOf args.terminators)
      args.inputs).1 = documents args files := by
    simp only [parseInputs, documents, List.filterMap_map]
    rfl
  have hreport : ∃ log, run args files = report args vs (documents args files) log := by
    unfold run
    rcases hload : Configuration.loadFile args.configuration (files args.configuration)
      with ⟨c, log⟩
    obtain rfl : c = some configuration := by rw [← hconfiguration, hload]
    rcases hshared : loadResources files args.characterTable with ⟨r, log'⟩
    obtain rfl : r = .ok resources := by rw [← hresources, hshared]
    dsimp only
    rcases hbuilt : Registry.withBuiltins.configure configuration resources with ⟨built, log''⟩
    obtain rfl : built = .ok vs := by rw [← hvalidators, hbuilt]
    rw [← hdocuments]
    exact ⟨_, rfl⟩
  obtain ⟨log, hrun⟩ := hreport
  rw [hrun]
  exact report_eq args vs (documents args files) log

theorem documents_remove {before after : List Text} {path : Text}
    (hinputs : args.inputs = before ++ path :: after) (h : Unusable files args.format path) :
    documents { args with inputs := before ++ after } files = documents args files := by
  have hnone := parseInput_of_unusable files h (terminatorsOf args.terminators)
  simp only [documents, hinputs, List.filterMap_append, List.filterMap_cons, hnone]

/-- A run on the arguments `raw` skips the inputs that cannot be used: what it shows is what it
would show without one of them. How the documents are checked does not show either. The exit code is
1 when some validator reports an error for some document, and 0 otherwise. -/
theorem run_shows {raw : List Text} {args : Arguments} {files : File.Lookup} {vs : List Validator}
    (hargs : parse? raw = some args) (hprepared : Prepared args files vs) :
    (∀ before path after, args.inputs = before ++ path :: after → before ++ after ≠ [] →
      Unusable files args.format path →
      (∃ x y, raw = x ++ path :: y ∧
        parse? (x ++ y) = some { args with inputs := before ++ after }) ∧
      (run { args with inputs := before ++ after } files).ShowsSame (run args files)) ∧
    (args.parallel = false →
      parse? (parallelOption :: raw) = some { args with parallel := true }) ∧
    (args.parallel = true → ∃ x y, raw = x ++ parallelOption :: y ∧
      parse? (x ++ y) = some { args with parallel := false }) ∧
    (∀ parallel, (run { args with parallel := parallel } files).ShowsSame (run args files)) ∧
    ((run args files).exitCode = 1 ↔
      ∃ v ∈ vs, ∃ path ∈ args.inputs, ∃ d, Parses args files path d ∧ v.Reports d) ∧
    ((run args files).exitCode = 0 ↔
      ¬ ∃ v ∈ vs, ∃ path ∈ args.inputs, ∃ d, Parses args files path d ∧ v.Reports d) := by
  obtain ⟨houtput, hexit⟩ := run_eq hprepared
  have hfound : Engine.findings vs (documents args files) ≠ [] ↔
      ∃ v ∈ vs, ∃ path ∈ args.inputs, ∃ d, Parses args files path d ∧ v.Reports d := by
    rw [Engine.findings_ne_nil_iff]
    simp only [mem_documents_iff]
    constructor
    · rintro ⟨v, hv, d, ⟨path, hpath, hd⟩, hreports⟩
      exact ⟨v, hv, path, hpath, d, hd, hreports⟩
    · rintro ⟨v, hv, path, hpath, d, hd, hreports⟩
      exact ⟨v, hv, d, ⟨path, hpath, hd⟩, hreports⟩
  have hcode : ((run args files).exitCode = 1 ↔
        Engine.findings vs (documents args files) ≠ []) ∧
      ((run args files).exitCode = 0 ↔ ¬ Engine.findings vs (documents args files) ≠ []) := by
    rw [hexit]
    by_cases h : Engine.findings vs (documents args files) = [] <;> simp [h]
  refine ⟨?_, fun h => parse?_add_parallel hargs h, fun h => parse?_remove_parallel hargs h, ?_,
    ?_, ?_⟩
  · intro before path after hinputs hrest hunusable
    refine ⟨parse?_remove_input hargs hinputs hrest, ?_⟩
    have hprepared' : Prepared { args with inputs := before ++ after } files vs := hprepared
    obtain ⟨houtput', hexit'⟩ := run_eq hprepared'
    rw [documents_remove hinputs hunusable] at houtput' hexit'
    exact ⟨houtput'.trans houtput.symm, hexit'.trans hexit.symm⟩
  · intro parallel
    have hprepared' : Prepared { args with parallel := parallel } files vs := hprepared
    obtain ⟨houtput', hexit'⟩ := run_eq hprepared'
    exact ⟨houtput'.trans houtput.symm, hexit'.trans hexit.symm⟩
  · exact hcode.1.trans hfound
  · exact hcode.2.trans (not_congr hfound)

/-- Of two inputs the first is missing, and the second has a sentence that is too long. -/
theorem run_shows_of_missing_input :
    let configuration := "<component name=\"Rules\"><component name=\"SentenceLength\">" ++
      "<property name=\"max_length\" value=\"4\"/></component></component>"
    let files : File.Lookup := fun path =>
      if path = "rules.xml".toList then .ok configuration.toUTF8
      else if path = "b.txt".toList then .ok "Too long.".toUTF8
      else .error "not found".toList
    let args : Arguments :=
      { configuration := "rules.xml".toList, inputs := ["a.txt".toList, "b.txt".toList] }
    (run { args with inputs := ["b.txt".toList] } files).ShowsSame (run args files) ∧
      (run args files).exitCode = 1 ∧
      ∃ v ∈ [Rule.SentenceLength.validator 4], ∃ path ∈ args.inputs, ∃ d,
        Parses args files path d ∧ v.Reports d := by
  intro configuration files args
  have hargs : parse? ["a.txt".toList, "b.txt".toList, "--conf=rules.xml".toList] = some args := by
    decide
  have hprepared : Prepared args files [Rule.SentenceLength.validator 4] :=
    ⟨⟨[⟨"Rules".toList, [], none, [1]⟩,
        ⟨"SentenceLength".toList, [("max_length".toList, ['4'])], some 0, []⟩]⟩,
      {}, by decide +kernel, rfl, rfl⟩
  have hmissing : Unusable files args.format "a.txt".toList := .unreadable _ rfl
  have hexit : (run args files).exitCode = 1 := by decide +kernel
  obtain ⟨hskip, -, -, -, hone, -⟩ := run_shows hargs hprepared
  exact ⟨(hskip [] _ _ rfl (by decide) hmissing).2, hexit, hone.mp hexit⟩

end CommandLine
end ProseLint
