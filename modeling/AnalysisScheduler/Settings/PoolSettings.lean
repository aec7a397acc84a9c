import AnalysisScheduler.Json.Reader
import AnalysisScheduler.Settings.Options

/-!
# Settings of a worker pool

How many workers a pool has and what they are called. The number comes from the setting `jobs` of a
section, or from a JSON record.
-/

namespace AnalysisScheduler

/-- The settings of a pool. -/
structure PoolSettings where
  /-- The number of workers; without one, or if it is zero, the machine decides. -/
  workers : Option UInt64 := none
  /-- The name of the workers. -/
  threadName : String := "bear-worker"
deriving DecidableEq, Repr

namespace PoolSettings

/-- The setting that holds the number of workers. -/
def jobs : String := "jobs"

/-- Reads a positive number of workers. -/
def parseJobs? (raw : String) : Option UInt64 := do
  let n ← (OptionKind.integer.parse? raw).bind (·.integer?)
  if 0 < n.toInt then some (.ofNat n.toInt.toNat) else none

/-- The settings of a section. -/
def ofSection (sec : Section) : Except SettingError PoolSettings :=
  match sec.get? jobs with
  | none => .ok { }
  | some raw =>
    match parseJobs? raw with
    | some n => .ok { workers := some n }
    | none => .error (.invalid sec.name jobs raw "positive integer")

/-- The settings of a record, in which every field may be missing. -/
def ofJson? (j : Json) : Option PoolSettings := do
  match ← j.fields? ["workers", "thread_name"] with
  | [workers, threadName] =>
    let workers ← match workers with
      | none | some .null => some none
      | some n => n.unsigned64?.map some
    let threadName ← match threadName with
      | none => some "bear-worker"
      | some s => s.text?
    return ⟨workers, threadName⟩
  | _ => none

/-- Reads a stored record. -/
def read? (cs : List Char) : Option PoolSettings := (Json.read? cs).bind ofJson?

/-- The number of workers of a pool on a machine that offers `available`. -/
def effective (s : PoolSettings) (available : UInt64) : UInt64 :=
  match s.workers with
  | some n => if 0 < n then n else available
  | none => available

end PoolSettings

end AnalysisScheduler
