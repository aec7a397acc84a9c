import AnalysisScheduler.Bear.Task

/-!
# Analyses

The code of a kind of bear, for each shape that the kind can have. A bear executes only tasks of its
own shape; another one is a fault. What goes wrong in the code of an analysis or of a sink is a text
with the causes behind it, from the nearest to the farthest.
-/

namespace AnalysisScheduler

/-- An error with its causes. -/
structure Fault where
  text : String
  causes : List String := []
deriving DecidableEq, Repr

/-- All texts of a fault in one line. -/
def Fault.chain (f : Fault) : String := ": ".intercalate (f.text :: f.causes)

/-- How a piece of work ends. -/
inductive Work (ρ : Type) where
  | done (results : List ρ)
  | failed (fault : Fault)
  | panicked

/-- What an analysis may look at besides its input. -/
structure AnalysisContext (w : Workspace) (ρ : Type) where
  scope : Section
  options : Options
  deliveries : Deliveries w ρ

/-- The analysis of a kind, for each of the shapes. -/
structure Analysis (w : Workspace) (ρ : Type) where
  corpus : Corpus → AnalysisContext w ρ → Work ρ
  file : String → List String → AnalysisContext w ρ → Work ρ
  delivery : Bear w → ρ → AnalysisContext w ρ → Work ρ

/-- What the tasks of a shape are called. -/
def Shape.taskNoun : Shape → String
  | .corpus => "a corpus task"
  | .file => "a file task"
  | .delivery => "a dependency result task"

/-- The fault of a bear that is given a task of another shape. -/
def Bear.mismatch {w : Workspace} {ρ : Type} (b : Bear w) (input : TaskInput w ρ) : Fault :=
  { text := b.name ++ " expects " ++ b.kind.shape.taskNoun ++ ", got " ++ input.inspect }

/-- Executes a task of a bear. -/
def Bear.execute {w : Workspace} {ρ : Type} (analyses : KindId w → Analysis w ρ) (b : Bear w)
    (task : Task w ρ) : Work ρ :=
  let analysis := analyses b.kindId
  let context : AnalysisContext w ρ := ⟨b.scope, task.options, task.deliveries⟩
  match b.kind.shape, task.input with
  | .corpus, .corpus => analysis.corpus b.corpus context
  | .file, .file name lines => analysis.file name lines context
  | .delivery, .delivery source result => analysis.delivery source result context
  | _, input => .failed (b.mismatch input)

end AnalysisScheduler
