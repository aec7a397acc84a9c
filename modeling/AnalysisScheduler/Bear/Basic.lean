import AnalysisScheduler.Bear.Workspace
import AnalysisScheduler.Text.Description

/-!
# Bears

A bear is an instance of a kind at a site. It exists only where its options resolve, so it always
has options. Bears are told apart by their numbers too: one kind may have several bears at one site.
-/

namespace AnalysisScheduler

/-- An instance of a kind. -/
structure Bear (w : Workspace) where
  /-- The number that the bear got when it was made. -/
  id : Nat
  kindId : KindId w
  site : Site w
  /-- The section of the site has all that the kind needs. -/
  equipped : (w.optionsOf kindId site).isOk = true
deriving DecidableEq

namespace Bear

variable {w : Workspace}

/-- Makes a bear of a kind at a site, if its options resolve. -/
def make (id : Nat) (k : KindId w) (site : Site w) : Except SettingError (Bear w) :=
  match h : w.optionsOf k site with
  | .ok _ => .ok ⟨id, k, site, by rw [h]; rfl⟩
  | .error e => .error e

def kind (b : Bear w) : Kind w.kindCount := w.kind b.kindId

def name (b : Bear w) : String := b.kind.name

/-- The section that the bear is configured by. -/
def scope (b : Bear w) : Section := w.sectionOf b.site

def corpus (b : Bear w) : Corpus := w.corpusOf b.site

def options (b : Bear w) : Options :=
  match h : w.optionsOf b.kindId b.site with
  | .ok o => o
  | .error e => absurd b.equipped (by rw [h]; exact Bool.noConfusion)

instance : Label (Bear w) where
  label b := b.name ++ "#" ++ Decimal.text b.id

end Bear

end AnalysisScheduler
