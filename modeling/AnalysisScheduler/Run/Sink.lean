import AnalysisScheduler.Run.Session

/-!
# Sinks

A sink takes the results of a run one by one. What it answers may depend on all that it has taken
before, and is noted; nothing else in the run depends on it.
-/

namespace AnalysisScheduler

/-- How a sink takes a result. -/
inductive Reception where
  | accepted
  | refused (fault : Fault)
  | panicked
deriving DecidableEq, Repr

/-- A receiver of results with a state of its own. -/
structure Sink (σ ρ : Type) where
  receive : σ → ρ → σ × Reception

/-- What there is to say about a reception. -/
def Reception.notices {w : Workspace} : Reception → List (Notice w)
  | accepted => []
  | refused fault => [.sinkFailed fault]
  | panicked => [.sinkPanicked]

namespace Session

variable {w : Workspace} {ρ σ : Type}

/-- Offers one result to the sink. -/
def offer (sink : Sink σ ρ) (state : Session w ρ × σ) (result : ρ) : Session w ρ × σ :=
  let (s, taken) := state
  let (taken, reception) := sink.receive taken result
  (reception.notices.foldl note (s.record (.offered result)), taken)

/-- Ends a task that is in flight, and offers its results to the sink after that. -/
def complete (sink : Sink σ ρ) (state : Session w ρ × σ) (t : Ticket w ρ) (outcome : Outcome ρ) :
    Session w ρ × σ :=
  (outcome.toOption.getD []).foldl (offer sink) (state.1.finish t outcome, state.2)

end Session

end AnalysisScheduler
