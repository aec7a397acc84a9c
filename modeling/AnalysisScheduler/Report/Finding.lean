import AnalysisScheduler.Number.Decimal
import AnalysisScheduler.Report.Severity

/-!
# Findings

What an analysis reports: a message of a given origin and severity about ranges of lines.
-/

namespace AnalysisScheduler

/-- Lines of one file, counted from one, the last line included. -/
structure LineRange where
  file : String
  first : UInt64
  last : UInt64
deriving DecidableEq, Repr

namespace LineRange

/-- A range that does not end before it starts. -/
def new (file : String) (first last : UInt64) : LineRange :=
  ⟨file, first, if last < first then first else last⟩

/-- The range of one line. -/
def single (file : String) (line : UInt64) : LineRange := new file line line

/-- The file and its lines; one line is not written as a range. -/
def display (r : LineRange) : String :=
  r.file ++ ":" ++ Decimal.text r.first.toNat ++
    if r.first = r.last then "" else "-" ++ Decimal.text r.last.toNat

end LineRange

/-- A message about some code. -/
structure Finding where
  /-- The name of the bear that reports it. -/
  origin : String
  message : String
  severity : Severity := .standard
  affected : List LineRange := []
deriving DecidableEq, Repr

/-- A finding in one line. -/
def Finding.display (f : Finding) : String :=
  "[" ++ f.severity.display ++ "] " ++ f.origin ++ ": " ++ f.message ++
    String.join (f.affected.map fun r => " (" ++ r.display ++ ")")

end AnalysisScheduler
