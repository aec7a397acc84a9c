import AnalysisScheduler.Bear.Deliveries

/-!
# Tasks

The work of a bear is cut into tasks by its shape. Each task carries the options of the bear and all
that has been delivered to it.
-/

namespace AnalysisScheduler

/-- What one task is about. -/
inductive TaskInput (w : Workspace) (ρ : Type) where
  | corpus
  | file (name : String) (lines : List String)
  | delivery (source : Bear w) (result : ρ)

/-- One piece of the work of a bear. -/
structure Task (w : Workspace) (ρ : Type) where
  input : TaskInput w ρ
  options : Options
  deliveries : Deliveries w ρ

namespace TaskInput

variable {w : Workspace} {ρ : Type}

/-- The inputs that a shape asks for: the corpus as such, its files in order, or the delivered
results in order. -/
def all (shape : Shape) (corpus : Corpus) (deliveries : Deliveries w ρ) : List (TaskInput w ρ) :=
  match shape with
  | .corpus => [.corpus]
  | .file => corpus.toList.map fun f => .file f.1 f.2
  | .delivery => deliveries.items.map fun i => .delivery i.1 i.2

/-- The description of an input. -/
def inspect : TaskInput w ρ → String
  | .corpus => "Corpus"
  | .file name lines =>
    Description.record "File"
      [("filename", Text.quoted name), ("lines", Decimal.text lines.length)]
  | .delivery source _ =>
    Description.openRecord "DependencyResult" [("dependency", label source)]

end TaskInput

/-- The tasks of a bear, once all its dependencies have delivered. -/
def Bear.tasks {w : Workspace} {ρ : Type} (b : Bear w) (deliveries : Deliveries w ρ) :
    List (Task w ρ) :=
  (TaskInput.all b.kind.shape b.corpus deliveries).map fun input =>
    ⟨input, b.options, deliveries⟩

/-- The description of a task. -/
def Task.inspect {w : Workspace} {ρ : Type} (t : Task w ρ) : String :=
  Description.record "Task"
    [("input", t.input.inspect), ("options", t.options.inspect),
     ("dependency_results", t.deliveries.inspect)]

end AnalysisScheduler
