import AnalysisScheduler.Collection.OrderedMap

/-!
# Corpora

The files that a bear looks at: the lines of each file under its name, in the order in which the
names were first given.
-/

namespace AnalysisScheduler

/-- Files by name. -/
structure Corpus where
  files : OrderedMap String (List String)
deriving Repr, DecidableEq

namespace Corpus

/-- The corpus of a list of files. A name that is repeated keeps its first place and takes its last
lines. -/
def ofList (files : List (String × List String)) : Corpus := ⟨.ofList files⟩

/-- The lines of a file. -/
def get? (c : Corpus) (name : String) : Option (List String) := c.files.get? name

def contains (c : Corpus) (name : String) : Bool := c.files.contains name

/-- The files in order. -/
def toList (c : Corpus) : List (String × List String) := c.files.entries

def names (c : Corpus) : List String := c.files.keys

def size (c : Corpus) : Nat := c.files.size

def isEmpty (c : Corpus) : Bool := c.files.isEmpty

/-- Corpora are the same if they have the same files, in whatever order. -/
def same (c d : Corpus) : Bool := c.files.sameEntries d.files

end Corpus

end AnalysisScheduler
