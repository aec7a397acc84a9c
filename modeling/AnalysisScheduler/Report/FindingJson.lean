import AnalysisScheduler.Json.Reader
import AnalysisScheduler.Report.Finding

/-!
# Findings as JSON

A finding is stored as a record with the fields `origin`, `message`, `severity` and `affected_code`,
in this order; the last is left out when it is empty. A finding that is read may leave out the last
two. A range that is read is taken as it is, even if it ends before it starts.
-/

namespace AnalysisScheduler

namespace Severity

def toJson (s : Severity) : Json := .ofText s.name

/-- A severity is its name, or an object whose only key is the name and whose value is null. -/
def ofJson? (j : Json) : Option Severity :=
  match j with
  | .object [(key, .null)] => (Json.string key).text?.bind ofName?
  | j => j.text?.bind ofName?

end Severity

namespace LineRange

def toJson (r : LineRange) : Json :=
  .object
    [("file".toList, .ofText r.file),
     ("start_line".toList, .ofNat r.first.toNat),
     ("end_line".toList, .ofNat r.last.toNat)]

def ofJson? (j : Json) : Option LineRange := do
  match ← j.fields? ["file", "start_line", "end_line"] with
  | [some file, some first, some last] =>
    return ⟨← file.text?, ← first.unsigned64?, ← last.unsigned64?⟩
  | _ => none

end LineRange

namespace Finding

def toJson (f : Finding) : Json :=
  .object <|
    [("origin".toList, .ofText f.origin),
     ("message".toList, .ofText f.message),
     ("severity".toList, f.severity.toJson)] ++
    if f.affected = [] then []
    else [("affected_code".toList, .array (f.affected.map LineRange.toJson))]

def ofJson? (j : Json) : Option Finding := do
  match ← j.fields? ["origin", "message", "severity", "affected_code"] with
  | [some origin, some message, severity, affected] =>
    let origin ← origin.text?
    let message ← message.text?
    let severity ← match severity with
      | some s => Severity.ofJson? s
      | none => some .standard
    let affected ← match affected with
      | some rs => rs.items?.bind (·.mapM LineRange.ofJson?)
      | none => some []
    return ⟨origin, message, severity, affected⟩
  | _ => none

/-- The stored text of a finding. -/
def write (f : Finding) : List Char := f.toJson.write

/-- Reads a stored finding. -/
def read? (cs : List Char) : Option Finding := (Json.read? cs).bind ofJson?

end Finding

end AnalysisScheduler
