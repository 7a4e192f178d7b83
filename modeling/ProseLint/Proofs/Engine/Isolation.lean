import ProseLint.Proofs.Engine.Calls

/-!
# Pairs of validators and documents

What a validator finds in a document depends on nothing else: not on other validators, not on other
documents, not on what the distributor answers. A validator that fails on any unit of a document
finds nothing in it. A run, one pair after another or the documents side by side, gives the findings
of its pairs in order, and the distributor hears of each of them once.
-/
namespace ProseLint

/-- The finding with the document as its file, if it names no file itself and the document has a
name. -/
def Finding.named (name : Text) (f : Finding) : Finding :=
  { f with file := if (f.file = none ∨ f.file = some []) ∧ name ≠ [] then some name else f.file }

namespace Validator

/-- What the rule says of each unit of a document, in reading order. -/
def verdicts (v : Validator) (d : Document) : List Verdict :=
  match v.rule with
  | .onDocument rule => [rule d]
  | .onSection rule => d.orderedSections.map fun s => rule s d
  | .onSentence rule => d.sentences.map rule

section

variable {α : Type} {check : α → Verdict} {xs : List α}

theorem collect_of_ok {parts : List (List Finding)} (h : xs.map check = parts.map .ok) :
    collect check xs = .ok parts.flatten := by
  induction xs generalizing parts with
  | nil =>
    obtain rfl : parts = [] := by simpa using h
    rfl
  | cons x xs ih =>
    cases parts with
    | nil => simp at h
    | cons part parts =>
      obtain ⟨hx, hxs⟩ := List.cons.inj h
      simp [collect, hx, ih hxs]

theorem collect_of_error {e : Failure} (h : .error e ∈ xs.map check) :
    ∃ e', collect check xs = .error e' := by
  induction xs with
  | nil => simp at h
  | cons x xs ih =>
    rw [List.map_cons, List.mem_cons] at h
    cases hx : check x with
    | error e' => exact ⟨e', by simp [collect, hx]⟩
    | ok found =>
      -- the failure is further on, and what was found before it is dropped
      obtain ⟨e', he'⟩ := ih (h.resolve_left (by simp [hx]))
      exact ⟨e', by simp [collect, hx, he']⟩

end

theorem check_of_ok {v : Validator} {d : Document} {parts : List (List Finding)}
    (h : v.verdicts d = parts.map .ok) : v.check d = .ok parts.flatten := by
  cases hrule : v.rule with
  | onDocument rule =>
    simp only [verdicts, check, hrule] at h ⊢
    obtain ⟨part, rfl, hpart⟩ := List.map_eq_singleton_iff.mp h.symm
    simp [← hpart]
  | onSection rule =>
    simp only [verdicts, check, hrule] at h ⊢
    exact collect_of_ok h
  | onSentence rule =>
    simp only [verdicts, check, hrule] at h ⊢
    exact collect_of_ok h

theorem check_of_error {v : Validator} {d : Document} {e : Failure}
    (h : .error e ∈ v.verdicts d) : ∃ e', v.check d = .error e' := by
  cases hrule : v.rule with
  | onDocument rule =>
    simp only [verdicts, check, hrule] at h ⊢
    exact ⟨e, (List.mem_singleton.mp h).symm⟩
  | onSection rule =>
    simp only [verdicts, check, hrule] at h ⊢
    exact collect_of_error h
  | onSentence rule =>
    simp only [verdicts, check, hrule] at h ⊢
    exact collect_of_error h

end Validator

namespace Engine

/-- What a run takes from one validator and one document. -/
structure PairSpec (v : Validator) (d : Document) (found : List Finding) : Prop where
  /-- A failure on any unit takes away what the rule has found on the others. -/
  of_failure : ∀ e, .error e ∈ v.verdicts d → found = []
  of_success : ∀ parts : List (List Finding), v.verdicts d = parts.map .ok →
    found = parts.flatten.map (Finding.named d.name)

theorem fillFile_eq (name : Text) (f : Finding) : fillFile name f = f.named name := by
  obtain ⟨validator, message, file, line, sentence⟩ := f
  cases file with
  | none => cases name <;> simp [fillFile, Finding.named, Finding.fileName]
  | some file => cases file <;> cases name <;> simp [fillFile, Finding.named, Finding.fileName]

theorem checkPair_spec (v : Validator) (d : Document) : PairSpec v d (checkPair v d).1 := by
  constructor
  · intro e he
    obtain ⟨e', he'⟩ := Validator.check_of_error he
    simp [checkPair, he']
  · intro parts hparts
    simp [checkPair, Validator.check_of_ok hparts, funext (fillFile_eq d.name)]

end Engine

namespace CheckRun

variable {σ : Type} {out : Distributor σ} {run run₁ run₂ run₃ : CheckRun σ}

@[simp] theorem findings_write (line : LogLine) (run : CheckRun σ) :
    (run.write line).findings = run.findings := rfl

@[simp] theorem state_write (line : LogLine) (run : CheckRun σ) :
    (run.write line).state = run.state := rfl

/-- Whatever a call answers, the findings stay as they are. -/
@[simp] theorem findings_signal (call : σ → Except Text Unit × σ) (what : Text)
    (run : CheckRun σ) : (run.signal call what).findings = run.findings := by
  unfold signal
  split <;> rfl

@[simp] theorem state_signal (call : σ → Except Text Unit × σ) (what : Text)
    (run : CheckRun σ) : (run.signal call what).state = (call run.state).2 := by
  unfold signal
  cases call run.state with
  | mk answer state => cases answer <;> rfl

/-- The second run has some findings more than the first, and has reported each of them. -/
structure Grows (out : Distributor σ) (run₁ : CheckRun σ) (found : List Finding)
    (run₂ : CheckRun σ) : Prop where
  findings_eq : run₂.findings = run₁.findings ++ found
  state_eq : run₂.state = out.after (found.map .report) run₁.state

namespace Grows

variable {found found' : List Finding}

theorem refl (run : CheckRun σ) : Grows out run [] run := ⟨by simp, rfl⟩

theorem trans (h : Grows out run₁ found run₂) (h' : Grows out run₂ found' run₃) :
    Grows out run₁ (found ++ found') run₃ := by
  constructor
  · rw [h'.findings_eq, h.findings_eq, List.append_assoc]
  · rw [h'.state_eq, h.state_eq, List.map_append, Distributor.after_append]

/-- The log does not count. -/
theorem of_log {log : List LogLine} (h : Grows out { run₁ with log := log } found run₂) :
    Grows out run₁ found run₂ := ⟨h.findings_eq, h.state_eq⟩

theorem add (f : Finding) (run : CheckRun σ) : Grows out run [f] (run.add out f) := by
  constructor <;> simp [CheckRun.add, Distributor.make]

/-- What each step adds, a fold adds one after another. -/
theorem foldl {α : Type} {step : CheckRun σ → α → CheckRun σ} {found : α → List Finding}
    (h : ∀ run x, Grows out run (found x) (step run x)) (xs : List α) (run : CheckRun σ) :
    Grows out run (xs.flatMap found) (xs.foldl step run) := by
  induction xs generalizing run with
  | nil => exact refl run
  | cons x xs ih =>
    rw [List.flatMap_cons]
    exact (h run x).trans (ih (step run x))

theorem addAll (fs : List Finding) (run : CheckRun σ) :
    Grows out run fs (fs.foldl (CheckRun.add out) run) := by
  simpa using foldl (fun run f => add f run) fs run

end Grows
end CheckRun

namespace Engine

variable {σ : Type} {out : Distributor σ}

open CheckRun (Grows)

/-- The findings of all pairs, validators in order and for each the documents in order. -/
def findings (vs : List Validator) (ds : List Document) : List Finding :=
  vs.flatMap fun v => ds.flatMap fun d => (checkPair v d).1

theorem grows_runPair (v : Validator) (run : CheckRun σ) (d : Document) :
    Grows out run (checkPair v d).1 (runPair out v run d) :=
  (Grows.addAll _ _).of_log

theorem grows_runBatch (ds : List Document) (run : CheckRun σ) (v : Validator) :
    Grows out run (ds.flatMap fun d => (checkPair v d).1) (runBatch out ds run v) := by
  have hbatch : (ds.map (checkPair v)).flatMap (·.1) = ds.flatMap fun d => (checkPair v d).1 :=
    List.flatMap_map _ _ _
  rw [← hbatch]
  exact (Grows.addAll _ _).of_log

theorem findings_start (vs : List Validator) (ds : List Document) (state : σ) :
    (start vs ds out { state := state }).findings = [] := by
  unfold start
  split <;> simp

theorem state_start (vs : List Validator) (ds : List Document) (state : σ) :
    (start vs ds out { state := state }).state = out.after [.begin] state := by
  unfold start
  split <;> simp [Distributor.make]

/-- A run that reports some findings between its start and its end makes the calls of a session. -/
theorem finish_of_grows {vs : List Validator} {ds : List Document} {state : σ}
    {found : List Finding} {run : CheckRun σ}
    (h : Grows out (start vs ds out { state := state }) found run) :
    (finish out run).findings = found ∧
      (finish out run).state = out.after (Call.session found) state := by
  constructor
  · simp [finish, h.findings_eq, findings_start]
  · simp [finish, h.state_eq, state_start, Call.session, Distributor.make]

theorem check_eq (vs : List Validator) (ds : List Document) (state : σ) :
    (check vs ds out state).findings = findings vs ds ∧
      (check vs ds out state).state = out.after (Call.session (findings vs ds)) state :=
  finish_of_grows (Grows.foldl (fun run v => Grows.foldl (grows_runPair v) ds run) vs _)

theorem checkParallel_eq (vs : List Validator) (ds : List Document) (state : σ) :
    (checkParallel vs ds out state).findings = findings vs ds ∧
      (checkParallel vs ds out state).state = out.after (Call.session (findings vs ds)) state :=
  finish_of_grows (Grows.foldl (grows_runBatch ds) vs _)

/-- What a run gives and what the distributor `out` receives in it, from the findings of each pair.
Behind the run the distributor is where these calls bring it, and one that records its calls has
recorded just these. -/
structure RunSpec (out : Distributor σ) (state : σ) (found : List Finding)
    (run : {τ : Type} → Distributor τ → τ → CheckRun τ) : Prop where
  findings_eq : (run out state).findings = found
  state_eq : (run out state).state = out.after (Call.session found) state
  recorded_findings_eq : (run out.recorded (state, [])).findings = found
  calls_eq : (run out.recorded (state, [])).state =
    (out.after (Call.session found) state, Call.session found)

theorem runSpec_of_forall {run : {τ : Type} → Distributor τ → τ → CheckRun τ}
    {found : List Finding}
    (h : ∀ {τ : Type} (out : Distributor τ) (state : τ), (run out state).findings = found ∧
      (run out state).state = out.after (Call.session found) state)
    (out : Distributor σ) (state : σ) : RunSpec out state found run := by
  obtain ⟨hfindings, hstate⟩ := h out state
  obtain ⟨hfindings', hstate'⟩ := h out.recorded (state, [])
  rw [Distributor.after_recorded, List.nil_append] at hstate'
  exact ⟨hfindings, hstate, hfindings', hstate'⟩

/-- Each pair stands by itself: a run gives the findings of every pair on which no rule fails, and
reports each of them once and in order, whatever the distributor answers. Checking documents side
by side makes no difference. -/
theorem check_isolates_pairs (vs : List Validator) (ds : List Document) (out : Distributor σ)
    (state : σ) :
    ∃ found : Validator → Document → List Finding, (∀ v d, PairSpec v d (found v d)) ∧
      RunSpec out state (vs.flatMap fun v => ds.flatMap (found v)) (check vs ds) ∧
      RunSpec out state (vs.flatMap fun v => ds.flatMap (found v)) (checkParallel vs ds) := by
  refine ⟨fun v d => (checkPair v d).1, checkPair_spec, ?_, ?_⟩
  · exact runSpec_of_forall (fun _ state => check_eq vs ds state) out state
  · exact runSpec_of_forall (fun _ state => checkParallel_eq vs ds state) out state

end Engine
end ProseLint
