import ProseLint.Engine
import ProseLint.Report.Format
import ProseLint.Report.Sink

/-!
# Writing reports

The writer puts findings into a sink, one on a line. The line break behind a finding is held back
until the next one or the end comes, so that a separator can stand before it.
-/
namespace ProseLint.Report

/-- A sink and the number of findings that were written whole. -/
structure Writer where
  sink : Sink
  reported : Nat := 0

namespace Writer

/-- Write one piece of text. -/
def put (t : Text) (w : Writer) : Except Text Unit × Writer :=
  let (result, sink) := w.sink.write t
  (result, { w with sink := sink })

/-- A line, if there is one to write. -/
def lineOf : Option Text → Text
  | some t => t ++ ['\n']
  | none => []

def begin (format : Format) (w : Writer) : Except Text Unit × Writer :=
  { w with reported := 0 }.put (lineOf format.header?)

/-- What parts a finding from the one before it. -/
def gap (format : Format) (w : Writer) : Text :=
  if w.reported = 0 then [] else lineOf (some (format.separator?.getD []))

def report (format : Format) (f : Finding) (w : Writer) : Except Text Unit × Writer :=
  match w.put (w.gap format ++ entry format f) with
  | (.ok _, w) => (.ok (), { w with reported := w.reported + 1 })
  | (.error reason, w) => (.error reason, w)

def finish (format : Format) (w : Writer) : Except Text Unit × Writer :=
  w.put ((if w.reported = 0 then [] else ['\n']) ++ lineOf format.footer?)

/-- The writer as a distributor. -/
def distributor (format : Format) : Distributor Writer where
  begin := begin format
  report := report format
  finish := finish format

end Writer

/-- Findings kept as they come. -/
structure Collector where
  findings : List Finding := []
  began : Bool := false
  ended : Bool := false

namespace Collector

def distributor : Distributor Collector where
  begin c := (.ok (), { c with began := true })
  report f c := (.ok (), { c with findings := c.findings ++ [f] })
  finish c := (.ok (), { c with ended := true })

end Collector

end ProseLint.Report
