import AnalysisScheduler.Bear.Basic
import AnalysisScheduler.Run.Error
import AnalysisScheduler.Text.Description

/-!
# Notices

What a run says about its progress: a level, a wording and named details.
-/

namespace AnalysisScheduler

/-- How much a notice matters. -/
inductive Level where
  | debug
  | warn
  | error
deriving DecidableEq, Repr

def Level.name : Level → String
  | debug => "DEBUG"
  | warn => "WARN"
  | error => "ERROR"

/-- One remark on the progress of a run. -/
inductive Notice (w : Workspace) where
  /-- A supplied bear is passed over for another one of its kind and site. -/
  | collapsed (bear kept : Bear w)
  /-- A dependency that was not supplied has been made. -/
  | minted (dependency dependant : Bear w)
  /-- The session is ready to run. -/
  | prepared (bears entryPoints edges : Nat)
  /-- A bear was to be scheduled for the second time. -/
  | rescheduled (bear : Bear w)
  /-- A bear has nothing to do. -/
  | noTasks (bear : Bear w)
  /-- The tasks of a bear are handed to the executor. -/
  | scheduling (bear : Bear w) (tasks : Nat)
  | taskFailed (bear : Bear w) (failure : TaskFailure)
  /-- The dependants of a failed bear could not be found. -/
  | untraced (bear : Bear w) (cycle : Circular (Bear w))
  /-- A dependant of a failed bear will not run. -/
  | withdrawn (dependant failed : Bear w)
  /-- The last task of a bear is done, and dependants of it have become free. -/
  | released (bear : Bear w) (freed : Nat)
  | sinkFailed (fault : Fault)
  | sinkPanicked
  /-- Nothing is left to do. -/
  | finished (scheduled : Nat)
  /-- Nothing is in flight, but some bears still wait. -/
  | stranded (pending : List (Bear w))

namespace Notice

variable {w : Workspace}

def level : Notice w → Level
  | rescheduled .. | untraced .. | stranded .. => .warn
  | taskFailed .. | sinkFailed .. | sinkPanicked => .error
  | _ => .debug

/-- The wording of a notice. -/
def message : Notice w → String
  | collapsed .. => "collapsing duplicate bear within its group"
  | minted .. => "instantiated dependency"
  | prepared .. => "initialized session"
  | rescheduled .. => "bear was already scheduled in this run; ignoring"
  | noTasks .. => "bear generated no tasks"
  | scheduling .. => "scheduling bear"
  | taskFailed .. => "task failed"
  | untraced .. => "could not collect dependants of failed bear"
  | withdrawn .. => "unscheduling dependant of failed bear"
  | released .. => "resolved bear"
  | sinkFailed .. => "result sink failed; continuing"
  | sinkPanicked => "result sink panicked; continuing"
  | finished .. => "session finished"
  | stranded .. => "session finished with unresolved dependencies; these bears never ran"

/-- The details of a notice under their names. -/
def details : Notice w → List (String × String)
  | collapsed bear kept => [("bear", label bear), ("kept", label kept)]
  | minted dependency dependant =>
    [("dependency", label dependency), ("dependant", label dependant)]
  | prepared bears entryPoints edges =>
    [("bears", Decimal.text bears), ("entrypoints", Decimal.text entryPoints),
     ("edges", Decimal.text edges)]
  | rescheduled bear | noTasks bear => [("bear", label bear)]
  | scheduling bear tasks => [("bear", label bear), ("tasks", Decimal.text tasks)]
  | taskFailed bear failure => [("bear", label bear), ("error", failure.fault.chain)]
  | untraced bear cycle => [("bear", label bear), ("error", cycle.message)]
  | withdrawn dependant failed => [("bear", label dependant), ("failed", label failed)]
  | released bear freed => [("bear", label bear), ("freed", Decimal.text freed)]
  | sinkFailed fault => [("error", fault.chain)]
  | sinkPanicked => []
  | finished scheduled => [("bears", Decimal.text scheduled)]
  | stranded pending =>
    [("pending", Description.brackets (pending.map fun b => Text.quoted (label b)))]

end Notice

end AnalysisScheduler
