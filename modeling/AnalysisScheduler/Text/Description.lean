import AnalysisScheduler.Number.Decimal
import AnalysisScheduler.Text.Quoted

/-!
# Descriptions of values

The common form in which a value is described for whoever looks into a program: the name of its
type, and its parts between brackets. Where a message or a description only names a value, it does
so by the value's label.
-/

namespace AnalysisScheduler

/-- How messages name the values of a type. -/
class Label (α : Type u) where
  label : α → String

export Label (label)

/-- A text is named by itself between quotes. -/
instance : Label String := ⟨Text.quoted⟩

/-- A number is named by its numeral. -/
instance : Label Int where
  label i := if i < 0 then "-" ++ Decimal.text i.natAbs else Decimal.text i.natAbs

namespace Description

/-- Parts with commas between them. -/
def commas (parts : List String) : String := ", ".intercalate parts

/-- A sequence. -/
def brackets (parts : List String) : String := "[" ++ commas parts ++ "]"

/-- A set. -/
def braces (parts : List String) : String := "\x7b" ++ commas parts ++ "\x7d"

/-- A map. -/
def map (entries : List (String × String)) : String :=
  braces (entries.map fun e => e.1 ++ ": " ++ e.2)

/-- A value made by a constructor from one argument. -/
def call (name argument : String) : String := name ++ "(" ++ argument ++ ")"

/-- A value with named parts. -/
def record (name : String) (parts : List (String × String)) : String :=
  name ++ " \x7b " ++ commas (parts.map fun e => e.1 ++ ": " ++ e.2) ++ " \x7d"

/-- A value with named parts of which some are left out. -/
def openRecord (name : String) (parts : List (String × String)) : String :=
  name ++ " \x7b " ++ commas (parts.map (fun e => e.1 ++ ": " ++ e.2) ++ [".."]) ++ " \x7d"

end Description

end AnalysisScheduler
