import ProseLint.CharacterTable.Load
import ProseLint.Configuration.Load
import ProseLint.Parse
import ProseLint.Registry
import ProseLint.Report.Writer

/-!
# The command line

A run loads the configuration and the character table, parses the documents, checks them and writes
the report. What files hold is given to it, so the whole run is a function. An input that gives no
document is skipped with a remark; a configuration that cannot be used ends the run.
-/
namespace ProseLint.CommandLine

structure Arguments where
  configuration : Text
  characterTable : Option Text := none
  format : Option InputFormat := none
  resultFormat : Report.Format := .plain
  terminators : Option Text := none
  parallel : Bool := false
  inputs : List Text
  deriving DecidableEq, Repr

/-- Options that take a value, and the one that does not. -/
inductive Flag where
  | configuration
  | characterTable
  | format
  | resultFormat
  | terminators
  | parallel
  deriving DecidableEq, Repr

namespace Flag

def ofLong? (name : Text) : Option Flag :=
  if name = "conf".toList then some configuration
  else if name = "char-table".toList then some characterTable
  else if name = "format".toList then some format
  else if name = "result-format".toList then some resultFormat
  else if name = "terminators".toList then some terminators
  else if name = "parallel".toList then some parallel
  else none

def ofShort? (c : Char) : Option Flag :=
  if c = 'c' then some configuration
  else if c = 'f' then some format
  else if c = 'r' then some resultFormat
  else none

end Flag

/-- One argument as it stands on the command line. -/
inductive Piece where
  | flag (f : Flag) (value : Option Text)
  | value (t : Text)
  /-- Behind it every argument is an input. -/
  | separator
  deriving DecidableEq, Repr

/-- Read one argument; an option that is not known is an error. -/
def piece? (t : Text) : Option Piece :=
  match t with
  | ['-'] => some (.value t)
  | ['-', '-'] => some .separator
  | '-' :: '-' :: rest =>
    let name := rest.takeWhile (· != '=')
    let value := match rest.drop name.length with
      | _ :: v => some v
      | [] => none
    (Flag.ofLong? name).map fun f => .flag f value
  | '-' :: c :: rest =>
    let value := match rest with
      | [] => none
      | '=' :: v => some v
      | v => some v
    (Flag.ofShort? c).map fun f => .flag f value
  | _ => some (.value t)

/-- Options with their values in order, and the inputs. -/
def collect? : List Text → Option (List (Flag × Text) × List Text)
  | [] => some ([], [])
  | t :: ts =>
    match piece? t with
    | none => none
    | some .separator => some ([], ts)
    | some (.value v) => (collect? ts).map fun r => (r.1, v :: r.2)
    | some (.flag .parallel value) =>
      if value.isSome then none else (collect? ts).map fun r => ((.parallel, []) :: r.1, r.2)
    | some (.flag f (some v)) => (collect? ts).map fun r => ((f, v) :: r.1, r.2)
    | some (.flag f none) =>
      match ts with
      | [] => none
      | v :: ts =>
        if piece? v = some (.value v) then (collect? ts).map fun r => ((f, v) :: r.1, r.2)
        else none

/-- The value of an option, read by `parse`, if it is given at all. -/
def option? {α : Type} (given : List (Flag × Text)) (f : Flag) (parse : Text → Option α) :
    Option (Option α) :=
  match given.lookup f with
  | none => some none
  | some v => (parse v).map some

def nonempty? (t : Text) : Option Text := if t.isEmpty then none else some t

/-- The arguments of a run, or nothing when they are not used rightly: every option at most once,
the configuration given, and one input at least. -/
def parse? (args : List Text) : Option Arguments := do
  let (given, inputs) ← collect? args
  let configuration ← (← option? given .configuration nonempty?)
  let characterTable ← option? given .characterTable nonempty?
  let format ← option? given .format fun t => (InputFormat.ofName t).toOption
  let resultFormat ← option? given .resultFormat fun t => (Report.Format.ofName t).toOption
  let terminators ← option? given .terminators some
  if inputs.isEmpty || inputs.any List.isEmpty || !decide (given.map (·.1)).Nodup then none
  else
    some
      { configuration := configuration
        characterTable := characterTable
        format := format
        resultFormat := resultFormat.getD .plain
        terminators := terminators
        parallel := (given.lookup .parallel).isSome
        inputs := inputs }

/-- What a run leaves behind. `errors` are the lines of the message that ends a failed run. -/
structure Outcome where
  exitCode : Nat
  output : List UInt8 := []
  log : List LogLine := []
  errors : List Text := []

/-- The message of a failed run; a cause stands indented below it. -/
def failure (what : Text) (cause : Option Text) : List Text :=
  let head := "Error: ".toList ++ what
  match cause with
  | none => [head]
  | some t =>
    [head, [], "Caused by:".toList] ++ (Text.splitOn '\n' t).map fun l => "    ".toList ++ l

/-- The resources of a run. -/
def loadResources (files : File.Lookup) (table : Option Text) :
    Except (List Text) Resources × List LogLine :=
  match table with
  | none => (.ok {}, [])
  | some path =>
    match CharacterTable.loadFile path (files path) with
    | (some t, log) => (.ok { characterTable := some t }, log)
    | (none, log) =>
      (.error (failure ("failed to load character table ".toList ++ path) none), log)

/-- The document of one input, if it has one. -/
def parseInput (files : File.Lookup) (format : Option InputFormat) (terminators : Terminators)
    (path : Text) : Option Document × List LogLine :=
  match format.or (InputFormat.ofPath? path) with
  | none =>
    (none, [.error ("Cannot tell the format of ".toList ++ path ++ "; pass --format".toList)])
  | some format =>
    match Parse.file format terminators path path (files path) with
    | (.ok p, log) => (some p.document, log)
    | (.error e, log) =>
      (none, log ++ [.error ("Skipping ".toList ++ path ++ ": ".toList ++ e.message)])

/-- The documents of the inputs, in their order. -/
def parseInputs (files : File.Lookup) (format : Option InputFormat) (terminators : Terminators)
    (inputs : List Text) : List Document × List LogLine :=
  let results := inputs.map (parseInput files format terminators)
  let documents := results.filterMap (·.1)
  (documents, results.flatMap (·.2) ++
    [.info ("Parsed ".toList ++ Text.ofNat documents.length ++ " of ".toList ++
      Text.ofNat inputs.length ++ " inputs".toList)])

def terminatorsOf (extra : Option Text) : Terminators :=
  match extra with
  | some t => Terminators.withExtra t
  | none => Terminators.fullStop

/-- Check documents and write the report; the exit code tells whether anything was found. -/
def report (args : Arguments) (validators : List Validator) (documents : List Document)
    (log : List LogLine) : Outcome :=
  let out := Report.Writer.distributor args.resultFormat
  let run := if args.parallel then Engine.checkParallel validators documents out ⟨{}, 0⟩
    else Engine.check validators documents out ⟨{}, 0⟩
  { exitCode := if run.findings.isEmpty then 0 else 1
    output := run.state.sink.written
    log := log ++ run.log }

/-- A run on given files. -/
def run (args : Arguments) (files : File.Lookup) : Outcome :=
  match Configuration.loadFile args.configuration (files args.configuration) with
  | (none, log) =>
    { exitCode := 1, log := log
      errors := failure ("failed to load configuration ".toList ++ args.configuration) none }
  | (some configuration, log) =>
    match loadResources files args.characterTable with
    | (.error errors, log') => { exitCode := 1, log := log ++ log', errors := errors }
    | (.ok resources, log') =>
      match Registry.withBuiltins.configure configuration resources with
      | (.error e, log'') =>
        { exitCode := 1, log := log ++ log' ++ log''
          errors := failure "invalid validator configuration".toList (some e.message) }
      | (.ok validators, log'') =>
        let (documents, parseLog) :=
          parseInputs files args.format (terminatorsOf args.terminators) args.inputs
        report args validators documents (log ++ log' ++ log'' ++ parseLog)

/-- The lines of a log on the error stream: warnings and errors only, further lines of a message
indented. -/
def logLines (log : List LogLine) : List Text :=
  (upTo .warn log).flatMap fun l =>
    match Text.splitOn '\n' l.render with
    | [] => []
    | first :: rest => first :: rest.map fun t => "    ".toList ++ t

/-- All lines on the error stream. -/
def Outcome.errorLines (o : Outcome) : List Text := logLines o.log ++ o.errors

end ProseLint.CommandLine
