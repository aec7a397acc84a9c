/-!
# Severities
-/

namespace AnalysisScheduler

/-- How urgent a finding is. -/
inductive Severity where
  | info
  | normal
  | major
deriving DecidableEq, Repr, Inhabited, Ord

namespace Severity

/-- The severity of a finding that does not state one. -/
def standard : Severity := .normal

/-- The severities from the least to the most urgent. -/
def all : List Severity := [.info, .normal, .major]

instance : LE Severity := leOfOrd

instance : Min Severity := minOfLe

instance : Max Severity := maxOfLe

/-- The name in small letters, by which a severity is stored. -/
def name : Severity → String
  | info => "info"
  | normal => "normal"
  | major => "major"

/-- The name in capitals, by which a severity is shown. -/
def display : Severity → String
  | info => "INFO"
  | normal => "NORMAL"
  | major => "MAJOR"

/-- The severity with a name in small letters. -/
def ofName? (s : String) : Option Severity := all.find? (·.name = s)

theorem ofName?_name (s : Severity) : ofName? s.name = some s := by cases s <;> decide +kernel

end Severity

end AnalysisScheduler
