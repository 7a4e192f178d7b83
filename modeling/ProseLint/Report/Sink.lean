import ProseLint.Text

/-!
# Sinks

A sink takes bytes up to a limit, if it has one. Of a write that does not fit it keeps the part
that does, and the write fails.
-/
namespace ProseLint.Report

structure Sink where
  written : List UInt8 := []
  limit : Option Nat := none
  deriving DecidableEq

/-- The bytes of a text in UTF-8. -/
def utf8 (t : Text) : List UInt8 := t.flatMap String.utf8EncodeChar

namespace Sink

/-- Why a write fails. -/
def full : Text := "sink full".toList

def writeBytes (bytes : List UInt8) (s : Sink) : Except Text Unit × Sink :=
  match s.limit with
  | none => (.ok (), { s with written := s.written ++ bytes })
  | some limit =>
    let room := limit - s.written.length
    (if bytes.length ≤ room then .ok () else .error full,
      { s with written := s.written ++ bytes.take room })

def write (t : Text) (s : Sink) : Except Text Unit × Sink := s.writeBytes (utf8 t)

end Sink

end ProseLint.Report
