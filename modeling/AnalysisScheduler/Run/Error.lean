import AnalysisScheduler.Bear.Analysis
import AnalysisScheduler.Graph.Closure

/-!
# Errors of a run

What can keep a run from starting, and why a single task may bring no results.
-/

namespace AnalysisScheduler

/-- Why a run did not start. Cycles are made of nodes of type `ν`. -/
inductive SetupError (ν : Type) where
  | circular (cycle : Circular ν)
  | setting (error : SettingError)
  /-- The executor could not be started. -/
  | startup (cause : String)
  /-- The run was asked for inside another one. -/
  | nested
deriving DecidableEq, Repr

/-- The wording of an error. -/
def SetupError.message {ν : Type} [Label ν] : SetupError ν → String
  | circular c => c.message
  | setting e => e.message
  | startup _ => "failed to start the task executor"
  | nested =>
    "`run` cannot be called from inside an async runtime; await `Session::run` instead"

/-- The texts of the causes of an error. -/
def SetupError.causes {ν : Type} : SetupError ν → List String
  | startup cause => [cause]
  | _ => []

/-- Why a task of a bear brought no results; the bear is given by its name. -/
inductive TaskFailure where
  | failed (bear : String) (fault : Fault)
  | panicked (bear : String)
  | cancelled (bear : String)
deriving DecidableEq, Repr

/-- A failure as a fault, with the fault of the analysis as its cause. -/
def TaskFailure.fault : TaskFailure → Fault
  | failed bear fault => ⟨"bear `" ++ bear ++ "` failed", fault.text :: fault.causes⟩
  | panicked bear => ⟨"bear `" ++ bear ++ "` panicked while executing a task", []⟩
  | cancelled bear => ⟨"task of bear `" ++ bear ++ "` was cancelled before completion", []⟩

/-- What a task ended with. -/
abbrev Outcome (ρ : Type) := Except TaskFailure (List ρ)

end AnalysisScheduler
