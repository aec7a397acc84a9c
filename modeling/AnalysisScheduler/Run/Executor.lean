import AnalysisScheduler.Bear.Analysis
import AnalysisScheduler.Run.Error

/-!
# Executors

An executor runs the jobs of bears. A fault or a panic in a job becomes the outcome of that job and
nothing more. A pool that has been shut down cancels its jobs without running them; the inline
executor has nothing to shut down and goes on.
-/

namespace AnalysisScheduler

/-- Work for an executor, with what it does to the world `σ` around it. -/
structure Job (σ ρ : Type) where
  /-- The name of the bear that the job is for. -/
  bear : String
  work : σ → σ × Work ρ

/-- The outcome of work that was done for a bear. -/
def Work.outcome {ρ : Type} (bear : String) : Work ρ → Outcome ρ
  | done results => .ok results
  | failed fault => .error (.failed bear fault)
  | panicked => .error (.panicked bear)

/-- Who runs the jobs. -/
inductive Executor where
  /-- Runs each job where it is submitted. -/
  | inline
  /-- Runs jobs on workers, as long as it is open. -/
  | pool (isOpen : Bool)
deriving DecidableEq, Repr

namespace Executor

/-- Whether a job that is submitted now will run. -/
def accepts : Executor → Bool
  | inline => true
  | pool isOpen => isOpen

/-- Runs a job, or cancels it. -/
def submit {σ ρ : Type} (e : Executor) (job : Job σ ρ) (world : σ) : σ × Outcome ρ :=
  if e.accepts then
    let (world, work) := job.work world
    (world, work.outcome job.bear)
  else (world, .error (.cancelled job.bear))

/-- Releases the workers; a second time changes nothing. -/
def shutdown : Executor → Executor
  | inline => inline
  | pool _ => pool false

end Executor

end AnalysisScheduler
