import AnalysisScheduler.Settings.Corpus
import AnalysisScheduler.Settings.Options

/-!
# Workspaces

What a run is about: the kinds of bears there are, the sections they may be configured by and the
corpora they may look at. All three are known by their place in the workspace, so two kinds of the
same name, or two sections with the same contents, are still different.
-/

namespace AnalysisScheduler

/-- What the tasks of a bear are about. -/
inductive Shape where
  /-- One task over the whole corpus. -/
  | corpus
  /-- One task for each file. -/
  | file
  /-- One task for each result that a dependency has delivered. -/
  | delivery
deriving DecidableEq, Repr

/-- A kind of bear, in a workspace of `n` kinds. -/
structure Kind (n : Nat) where
  name : String
  shape : Shape
  /-- The kinds whose results the bears of this kind need, as they were declared. -/
  dependencies : List (Fin n)
  signature : Signature
deriving Repr

/-- The kinds, sections and corpora of a run. -/
structure Workspace where
  kindCount : Nat
  kinds : Vector (Kind kindCount) kindCount
  sections : Array Section
  corpora : Array Corpus

/-- A kind by its place. -/
abbrev KindId (w : Workspace) := Fin w.kindCount

/-- A section and a corpus by their places. Bears of one site form a group. -/
structure Site (w : Workspace) where
  sectionId : Fin w.sections.size
  corpusId : Fin w.corpora.size
deriving DecidableEq, Repr

namespace Workspace

def kind (w : Workspace) (k : KindId w) : Kind w.kindCount := w.kinds[k]

/-- The kinds that a kind depends on, each once, in the order of their first declaration. -/
def dependenciesOf (w : Workspace) (k : KindId w) : List (KindId w) :=
  (w.kind k).dependencies.eraseDups

def sectionOf (w : Workspace) (site : Site w) : Section := w.sections[site.sectionId]

def corpusOf (w : Workspace) (site : Site w) : Corpus := w.corpora[site.corpusId]

/-- The options of a kind at a site. -/
def optionsOf (w : Workspace) (k : KindId w) (site : Site w) : Except SettingError Options :=
  Options.resolve (w.kind k).name (w.sectionOf site) (w.kind k).signature

end Workspace

end AnalysisScheduler
