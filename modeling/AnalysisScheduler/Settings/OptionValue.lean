import AnalysisScheduler.Number.FloatText
import AnalysisScheduler.Number.Signed64
import AnalysisScheduler.Text.Blank
import AnalysisScheduler.Text.Description
import AnalysisScheduler.Text.Lowercase
import AnalysisScheduler.Text.Quoted

/-!
# Option values

What a raw setting means depends on the kind of value that is asked for (`OptionKind.parse?`):

* a text is the raw setting itself, blanks included;
* an integer fits in 64 bits, a number is a floating point numeral;
* a boolean is one of a few words in any case;
* a list is a line of comma-separated entries.

All kinds but the text ignore blanks around the setting.
-/

namespace AnalysisScheduler

/-- The kinds of option values. -/
inductive OptionKind where
  | text
  | integer
  | number
  | boolean
  | list
deriving DecidableEq, Repr

/-- The value of an option. -/
inductive OptionValue where
  | text (value : String)
  | integer (value : Int64)
  | number (value : Float)
  | boolean (value : Bool)
  | list (value : List String)
deriving Repr, BEq, Inhabited

namespace OptionKind

/-- How messages call a value of the kind. -/
def noun : OptionKind → String
  | text => "string"
  | integer => "integer"
  | number => "number"
  | boolean => "boolean"
  | list => "list"

/-- The name of the kind in descriptions. -/
def tag : OptionKind → String
  | text => "Str"
  | integer => "Int"
  | number => "Float"
  | boolean => "Bool"
  | list => "List"

/-- The words for true. -/
def trueWords : List (List Char) :=
  ["true".toList, "yes".toList, "on".toList, "y".toList, "1".toList]

/-- The words for false. -/
def falseWords : List (List Char) :=
  ["false".toList, "no".toList, "off".toList, "n".toList, "0".toList, "none".toList]

/-- Reads a boolean without blanks around it. -/
def parseBoolean? (cs : List Char) : Option Bool :=
  let word := Text.lower cs
  if word ∈ trueWords then some true
  else if word ∈ falseWords then some false
  else none

/-- Reads a raw setting as a value of the kind. -/
def parse? (kind : OptionKind) (raw : String) : Option OptionValue :=
  let trimmed := Text.trim raw.toList
  match kind with
  | text => some (.text raw)
  | integer => (Signed64.read? trimmed).map .integer
  | number => (FloatText.read? trimmed).map .number
  | boolean => (parseBoolean? trimmed).map .boolean
  | list => some (.list ((Text.entries trimmed).map .ofList))

end OptionKind

namespace OptionValue

/-- The kind that a value is of. -/
def kind : OptionValue → OptionKind
  | text _ => .text
  | integer _ => .integer
  | number _ => .number
  | boolean _ => .boolean
  | list _ => .list

def text? : OptionValue → Option String
  | text value => some value
  | _ => none

def integer? : OptionValue → Option Int64
  | integer value => some value
  | _ => none

/-- A number; an integer is one too, rounded to the nearest if it has to be. -/
def number? : OptionValue → Option Float
  | number value => some value
  | integer value => some (Binary64.ofInt value.toInt)
  | _ => none

def boolean? : OptionValue → Option Bool
  | boolean value => some value
  | _ => none

def list? : OptionValue → Option (List String)
  | list value => some value
  | _ => none

/-- A value in a text for readers. -/
def display : OptionValue → String
  | text value => value
  | integer value => Signed64.text value
  | number value => .ofList (FloatText.display value)
  | boolean value => if value then "true" else "false"
  | list value => ", ".intercalate value

/-- The description of a value. -/
def inspect (v : OptionValue) : String :=
  Description.call v.kind.tag <|
    match v with
    | text value => Text.quoted value
    | number value => .ofList (FloatText.inspect value)
    | list value => Description.brackets (value.map Text.quoted)
    | v => v.display

end OptionValue

end AnalysisScheduler
