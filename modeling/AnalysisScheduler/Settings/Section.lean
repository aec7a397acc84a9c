import AnalysisScheduler.Collection.OrderedMap
import AnalysisScheduler.Text.Blank
import AnalysisScheduler.Text.Lowercase

/-!
# Sections

A section is the scope that a bear is configured in: a name and a bag of raw settings. Setting names
are the same if they agree after `normalise`, that is without blanks around them and in small
letters.
-/

namespace AnalysisScheduler

/-- A named bag of raw settings, stored under their normal names. -/
structure Section where
  name : String
  settings : OrderedMap String String
deriving Repr, DecidableEq

namespace Section

/-- The form of a setting name under which it is stored. -/
def normalise (name : String) : String :=
  .ofList (Text.lower (Text.trim name.toList))

/-- A section without settings. -/
def new (name : String) : Section := ⟨name, .empty⟩

/-- Writes a setting. A setting that is there already keeps its place and loses its value. -/
def set (s : Section) (name value : String) : Section :=
  { s with settings := s.settings.insert (normalise name) value }

/-- Writes settings one after another. -/
def setAll (s : Section) (settings : List (String × String)) : Section :=
  settings.foldl (fun s e => s.set e.1 e.2) s

/-- The raw value of a setting. -/
def get? (s : Section) (name : String) : Option String := s.settings.get? (normalise name)

def contains (s : Section) (name : String) : Bool := s.settings.contains (normalise name)

/-- The settings in the order in which their names were first written. -/
def toList (s : Section) : List (String × String) := s.settings.entries

def size (s : Section) : Nat := s.settings.size

def isEmpty (s : Section) : Bool := s.settings.isEmpty

/-- Sections are the same if their names and their settings are, in whatever order. -/
def same (s t : Section) : Bool := s.name = t.name && s.settings.sameEntries t.settings

theorem get?_set (s : Section) (name name' value : String) :
    (s.set name value).get? name' =
      if normalise name' = normalise name then some value else s.get? name' :=
  s.settings.get?_insert _ _ _

end Section

end AnalysisScheduler
