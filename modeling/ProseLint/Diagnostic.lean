import ProseLint.Text

/-!
# Diagnostics and the log

Structural oddities of a document are noted, not refused. A log line is a message with a severity;
every diagnostic is also a log line.
-/
namespace ProseLint

inductive Severity where
  | error
  | warn
  | info
  | debug
  deriving DecidableEq, Repr

namespace Severity

def name : Severity → Text
  | error => "ERROR".toList
  | warn => "WARN".toList
  | info => "INFO".toList
  | debug => "DEBUG".toList

/-- Errors come first and debugging messages last. -/
def rank : Severity → Nat
  | error => 0
  | warn => 1
  | info => 2
  | debug => 3

end Severity

structure LogLine where
  severity : Severity
  message : Text
  deriving DecidableEq, Repr

namespace LogLine

def error (message : Text) : LogLine := ⟨.error, message⟩

def warn (message : Text) : LogLine := ⟨.warn, message⟩

def info (message : Text) : LogLine := ⟨.info, message⟩

def debug (message : Text) : LogLine := ⟨.debug, message⟩

def render (l : LogLine) : Text := l.severity.name ++ [' '] ++ l.message

end LogLine

/-- The lines that are at least as severe as the given severity. -/
def upTo (severity : Severity) (log : List LogLine) : List LogLine :=
  log.filter fun l => l.severity.rank ≤ severity.rank

inductive DiagnosticLevel where
  | note
  | warning
  deriving DecidableEq, Repr

namespace DiagnosticLevel

def name : DiagnosticLevel → Text
  | note => "note".toList
  | warning => "warning".toList

def severity : DiagnosticLevel → Severity
  | note => .debug
  | warning => .warn

end DiagnosticLevel

/-- A remark on a document, with the source line where it is known. -/
structure Diagnostic where
  level : DiagnosticLevel
  message : Text
  line : Option Nat := none
  deriving DecidableEq, Repr

namespace Diagnostic

def note (message : Text) (line : Option Nat) : Diagnostic := ⟨.note, message, line⟩

def warning (message : Text) (line : Option Nat) : Diagnostic := ⟨.warning, message, line⟩

def isWarning (d : Diagnostic) : Bool := d.level == .warning

def render (d : Diagnostic) : Text :=
  match d.line with
  | some n => d.level.name ++ " (line ".toList ++ Text.ofNat n ++ "): ".toList ++ d.message
  | none => d.level.name ++ ": ".toList ++ d.message

/-- The log line of a diagnostic: a known source is named in front, the line is left out. -/
def logLine (source : Text) (d : Diagnostic) : LogLine :=
  let start := if source.isEmpty then [] else source ++ ": ".toList
  ⟨d.level.severity, start ++ d.message⟩

end Diagnostic

end ProseLint
