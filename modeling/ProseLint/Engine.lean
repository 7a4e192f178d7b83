import ProseLint.Diagnostic
import ProseLint.Validator

/-!
# Checking documents

Every validator is run on every document, and each such pair stands by itself: a rule that fails on
a document gives nothing for it, and the run goes on. The findings go to a distributor as they come,
between a begin and an end, and what the distributor answers changes nothing in the run.
-/
namespace ProseLint

/-- Where findings go. Each call changes the distributor's state and may fail for a reason. -/
structure Distributor (σ : Type) where
  begin : σ → Except Text Unit × σ
  report : Finding → σ → Except Text Unit × σ
  finish : σ → Except Text Unit × σ

/-- A run so far: the distributor's state, the findings in order, and the log. -/
structure CheckRun (σ : Type) where
  state : σ
  findings : List Finding := []
  log : List LogLine := []

namespace CheckRun

variable {σ : Type}

def write (line : LogLine) (run : CheckRun σ) : CheckRun σ :=
  { run with log := run.log ++ [line] }

/-- Make a call to the distributor and log its failure. -/
def signal (call : σ → Except Text Unit × σ) (what : Text) (run : CheckRun σ) : CheckRun σ :=
  match call run.state with
  | (.ok _, state) => { run with state := state }
  | (.error reason, state) =>
    { run with state := state }.write
      (.error ("Result distributor failed on ".toList ++ what ++ ": ".toList ++ reason))

/-- Keep a finding and report it. -/
def add (out : Distributor σ) (run : CheckRun σ) (f : Finding) : CheckRun σ :=
  let run := run.signal (out.report f) "report".toList
  { run with findings := run.findings ++ [f] }

end CheckRun

namespace Engine

/-- Name the document in a finding that names no file. -/
def fillFile (name : Text) (f : Finding) : Finding :=
  if f.fileName.isEmpty && !name.isEmpty then { f with file := some name } else f

/-- The log line of a rule that failed on a document. -/
def failureLine (v : Validator) (d : Document) (e : Failure) : LogLine :=
  let (verb, reason) : Text × Text :=
    match e with
    | .refused message => ("failed".toList, message)
    | .brokeDown message => ("panicked".toList, message.getD "unknown panic".toList)
  .error ("Validator '".toList ++ v.name ++ "' ".toList ++ verb ++ " on document '".toList ++
    d.name ++ "': ".toList ++ reason)

/-- The findings of one validator on one document; none, and a log line, when the rule fails. -/
def checkPair (v : Validator) (d : Document) : List Finding × List LogLine :=
  match v.check d with
  | .ok found => (found.map (fillFile d.name), [])
  | .error e => ([], [failureLine v d e])

variable {σ : Type}

/-- What is logged and signalled before the first pair. -/
def start (vs : List Validator) (ds : List Document) (out : Distributor σ) (run : CheckRun σ) :
    CheckRun σ :=
  let run := if ds.isEmpty then run.write (.warn "No documents to check".toList) else run
  let line := "Checking ".toList ++ Text.ofNat ds.length ++ " documents with ".toList ++
    Text.ofNat vs.length ++ " validators".toList
  (run.write (.debug line)).signal out.begin "begin".toList

/-- What is signalled and logged behind the last pair. -/
def finish (out : Distributor σ) (run : CheckRun σ) : CheckRun σ :=
  let run := run.signal out.finish "end".toList
  run.write (.info ("Validation finished with ".toList ++ Text.ofNat run.findings.length ++
    " errors".toList))

/-- Run one pair and report its findings. -/
def runPair (out : Distributor σ) (v : Validator) (run : CheckRun σ) (d : Document) : CheckRun σ :=
  let (found, log) := checkPair v d
  found.foldl (CheckRun.add out) { run with log := run.log ++ log }

/-- Check the documents one after another with each validator in turn. -/
def check (vs : List Validator) (ds : List Document) (out : Distributor σ) (state : σ) :
    CheckRun σ :=
  let run := start vs ds out { state := state }
  finish out (vs.foldl (fun run v => ds.foldl (runPair out v) run) run)

/-- Run one validator on all documents at once, then report all its findings. -/
def runBatch (out : Distributor σ) (ds : List Document) (run : CheckRun σ) (v : Validator) :
    CheckRun σ :=
  let results := ds.map (checkPair v)
  (results.flatMap (·.1)).foldl (CheckRun.add out)
    { run with log := run.log ++ results.flatMap (·.2) }

/-- Check all documents of a validator side by side before its first report. -/
def checkParallel (vs : List Validator) (ds : List Document) (out : Distributor σ) (state : σ) :
    CheckRun σ :=
  finish out (vs.foldl (runBatch out ds) (start vs ds out { state := state }))

end Engine

end ProseLint
