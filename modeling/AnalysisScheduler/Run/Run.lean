import AnalysisScheduler.Run.Course

/-!
# Runs

A whole run: the supplied bears are made into a session, the session is driven to its end, and the
executor is shut down, whatever happens. Only what keeps a run from starting is an error; tasks that
fail and sinks that refuse are noted in the history.
-/

namespace AnalysisScheduler

/-- What a run is given besides its bears. -/
structure Environment (w : Workspace) (ρ σ : Type) where
  /-- The code of the kinds. -/
  analyses : KindId w → Analysis w ρ
  executor : Executor
  sink : Sink σ ρ
  /-- How many rounds each submission lets others pass before it ends. -/
  patience : Nat → Nat := fun _ => 0
  /-- Whether the run is asked for inside another one. -/
  isNested : Bool := false

/-- What is left of a run. -/
structure Report (w : Workspace) (ρ σ : Type) where
  outcome : Except (SetupError (Bear w)) Unit
  history : List (Event w ρ)
  /-- What has become of the sink. -/
  taken : σ
  executor : Executor
  /-- How many tasks were handed to the executor. -/
  submissions : Nat
  /-- How often the executor was asked to shut down. -/
  shutdowns : Nat

namespace Environment

variable {w : Workspace} {ρ σ : Type}

/-- The job of a task. -/
def job (env : Environment w ρ σ) (t : Ticket w ρ) : Job Unit ρ where
  bear := t.bear.name
  work := fun world => (world, t.bear.execute env.analyses t.task)

/-- What a task ends with when the executor gets it. -/
def perform (env : Environment w ρ σ) (t : Ticket w ρ) : Outcome ρ :=
  (env.executor.submit (env.job t) ()).2

end Environment

namespace Session

variable {w : Workspace} {ρ σ : Type}

/-- Drives a session to its end and shuts the executor down. -/
def run (env : Environment w ρ σ) (s : Session w ρ) (taken : σ) : Report w ρ σ :=
  let c := Course.drive env.patience env.perform env.sink
    (.ofSession env.patience s.launch taken)
  { outcome := .ok ()
    history := c.session.close.history
    taken := c.taken
    executor := env.executor.shutdown
    submissions := c.session.nextTicket
    shutdowns := 1 }

end Session

/-- The report of a run that did not start. -/
def Report.refused {w : Workspace} {ρ σ : Type} (error : SetupError (Bear w))
    (history : List (Event w ρ)) (taken : σ) (executor : Executor) : Report w ρ σ :=
  ⟨.error error, history, taken, executor, 0, 0⟩

/-- A report after the executor was asked once more to shut down. -/
def Report.shutDown {w : Workspace} {ρ σ : Type} (r : Report w ρ σ) : Report w ρ σ :=
  { r with executor := r.executor.shutdown, shutdowns := r.shutdowns + 1 }

/-- Runs the supplied bears; bears that have to be made are numbered from `nextId`. A run inside
another one is refused before anything is touched. Otherwise the executor is shut down at the end,
also when it was shut down before. -/
def run {w : Workspace} {ρ σ : Type} (env : Environment w ρ σ) (nextId : Nat)
    (supplied : List (Bear w)) (taken : σ) : Report w ρ σ :=
  if env.isNested then .refused .nested [] taken env.executor
  else match Session.start nextId supplied with
    | (history, .error e) => (Report.refused e history taken env.executor).shutDown
    | (_, .ok s) => (s.run env taken).shutDown

end AnalysisScheduler
