import AnalysisScheduler.Bear.Task
import AnalysisScheduler.Graph.Description
import AnalysisScheduler.Run.Roster

/-!
# Sessions

A session takes a roster through one run. It asks each bear for its tasks when the bear waits on
nobody any more, hands the results of a task to those that wait on the bear, and resolves the bear
after its last task. A failed task takes every transitive dependant of its bear out of the run.

A session is a value. `launch` schedules the entry points, and `finish` takes one task that is in
flight and what it ended with; which task comes next, and with what outcome, is up to the caller.
What happened is kept in order in `history`.

Scheduling and resolving depend on each other: a bear without tasks is resolved at once, which can
free bears that have to be scheduled. `settle` does this with a list of bears that are still to be
resolved. Each freed bear takes an edge out of the graph, so the list and the graph together shrink.
-/

namespace AnalysisScheduler

/-- A task that has been handed to the executor, under the number of its submission. -/
structure Ticket (w : Workspace) (ρ : Type) where
  id : Nat
  bear : Bear w
  task : Task w ρ

/-- One thing that happened in a run. -/
inductive Event (w : Workspace) (ρ : Type) where
  /-- A bear was asked for its tasks, with all that has been delivered to it. -/
  | asked (bear : Bear w) (deliveries : Deliveries w ρ)
  | submitted (ticket : Ticket w ρ)
  /-- A result was offered to the sink. -/
  | offered (result : ρ)
  | noticed (notice : Notice w)

/-- The state of a run. -/
structure Session (w : Workspace) (ρ : Type) where
  /-- The bears that the caller asked for. -/
  supplied : List (Bear w)
  roster : Roster w
  /-- Who still waits on whom. -/
  graph : WaitGraph (Bear w)
  /-- The unfinished tasks of each bear, by their numbers. -/
  running : OrderedMap (Bear w) (List Nat)
  /-- What has been delivered to bears that are not yet scheduled. -/
  buffers : OrderedMap (Bear w) (Deliveries w ρ)
  /-- The bears that have been asked for their tasks. -/
  scheduled : List (Bear w)
  inFlight : List (Ticket w ρ)
  nextTicket : Nat
  history : List (Event w ρ)

namespace Session

variable {w : Workspace} {ρ : Type}

/-! ## Beginning -/

/-- The session of a roster, with what has been said while it was assembled. -/
def ofRoster (supplied : List (Bear w)) (roster : Roster w) (said : List (Notice w)) :
    Session w ρ where
  supplied := supplied
  roster := roster
  graph := roster.graph
  running := .empty
  buffers := .empty
  scheduled := []
  inFlight := []
  nextTicket := 0
  history :=
    (said ++ [Notice.prepared supplied.length roster.entryPoints.length
      roster.graph.size]).map .noticed

/-- The session of the supplied bears; new bears are numbered from `nextId`. When there is none, the
history ends with what was said before the error. -/
def start (nextId : Nat) (supplied : List (Bear w)) :
    List (Event w ρ) × Except (SetupError (Bear w)) (Session w ρ) :=
  match Roster.assemble nextId supplied with
  | (said, .error e) => (said.map .noticed, .error e)
  | (said, .ok roster) =>
    let s := ofRoster supplied roster said
    (s.history, .ok s)

/-! ## History -/

def record (s : Session w ρ) (e : Event w ρ) : Session w ρ := { s with history := s.history ++ [e] }

def note (s : Session w ρ) (n : Notice w) : Session w ρ := s.record (.noticed n)

/-! ## Scheduling -/

/-- Hands the tasks of a bear to the executor. -/
def submit (s : Session w ρ) (b : Bear w) (tasks : List (Task w ρ)) : Session w ρ :=
  let tickets := tasks.mapIdx fun i t => ⟨s.nextTicket + i, b, t⟩
  { s with
    running := s.running.insert b (tickets.map Ticket.id)
    inFlight := s.inFlight ++ tickets
    nextTicket := s.nextTicket + tasks.length
    history := s.history ++ tickets.map .submitted }

/-- Asks a bear for its tasks, which uses up what has been delivered to it. A bear without tasks is
returned to be resolved. A bear is asked only once. -/
def ask (s : Session w ρ) (b : Bear w) : Session w ρ × List (Bear w) :=
  if b ∈ s.scheduled then (s.note (.rescheduled b), [])
  else
    let deliveries := (s.buffers.get? b).getD .empty
    let tasks := b.tasks deliveries
    let s := { s with scheduled := s.scheduled ++ [b], buffers := s.buffers.erase b }
    let s := s.record (.asked b deliveries)
    if tasks.isEmpty then (s.note (.noTasks b), [b])
    else ((s.note (.scheduling b tasks.length)).submit b tasks, [])

/-- Asks bears for their tasks one after another, and returns those without tasks. -/
def askAll (s : Session w ρ) : List (Bear w) → Session w ρ × List (Bear w)
  | [] => (s, [])
  | b :: rest =>
    let (s, idle) := s.ask b
    let (s, more) := s.askAll rest
    (s, idle ++ more)

theorem graph_ask (s : Session w ρ) (b : Bear w) : (s.ask b).1.graph = s.graph := by
  unfold ask
  dsimp only
  split
  · rfl
  · split <;> rfl

theorem length_ask_le (s : Session w ρ) (b : Bear w) : (s.ask b).2.length ≤ 1 := by
  unfold ask
  dsimp only
  split
  · simp
  · split <;> simp

theorem graph_askAll (s : Session w ρ) (bs : List (Bear w)) :
    (s.askAll bs).1.graph = s.graph := by
  induction bs generalizing s with
  | nil => rfl
  | cons b rest ih => exact (ih _).trans (s.graph_ask b)

theorem length_askAll_le (s : Session w ρ) (bs : List (Bear w)) :
    (s.askAll bs).2.length ≤ bs.length := by
  induction bs generalizing s with
  | nil => exact Nat.le_refl _
  | cons b rest ih =>
    simp only [askAll, List.length_append, List.length_cons]
    have one := s.length_ask_le b
    have more := ih (s.ask b).1
    omega

/-- Whether a bear has unfinished tasks. -/
def isBusy (s : Session w ρ) (b : Bear w) : Bool := !((s.running.get? b).getD []).isEmpty

/-- Resolves bears that have nothing more to do and schedules the bears that this frees, which are
resolved first if they have no tasks. -/
def settle (s : Session w ρ) (done : List (Bear w)) : Session w ρ :=
  match done with
  | [] => s
  | b :: rest =>
    if s.isBusy b then s.settle rest
    else
      let freed := s.graph.freedBy b
      let s' := { s with running := s.running.erase b, graph := s.graph.resolve b }
      if freed = [] then s'.settle rest
      else
        let next := (s'.note (.released b freed.length)).askAll freed
        next.1.settle (next.2 ++ rest)
termination_by s.graph.size + done.length
decreasing_by
  · simp only [List.length_cons]
    omega
  · have less := s.graph.size_resolve_add_le b
    simp only [List.length_cons]
    omega
  · have less := s.graph.size_resolve_add_le b
    have few := ((s'.note (.released b freed.length)).length_askAll_le freed)
    have same := (s'.note (.released b freed.length)).graph_askAll freed
    rw [same]
    simp only [List.length_cons, List.length_append]
    change (s.graph.resolve b).size + (next.2.length + rest.length) < _
    change next.2.length ≤ (s.graph.freedBy b).length at few
    omega

/-- Schedules bears that wait on nobody. -/
def schedule (s : Session w ρ) (bs : List (Bear w)) : Session w ρ :=
  let (s, idle) := s.askAll bs
  s.settle idle

/-- Schedules the entry points. -/
def launch (s : Session w ρ) : Session w ρ := s.schedule s.roster.entryPoints

/-! ## Finishing a task -/

/-- Adds results of a bear to what has been delivered to its dependants. -/
def deliver (s : Session w ρ) (source : Bear w) (results : List ρ) : Session w ρ :=
  { s with
    buffers := (s.graph.dependantsOf source).foldl
      (fun buffers b =>
        buffers.insert b (((buffers.get? b).getD .empty).receive source results))
      s.buffers }

/-- Takes one dependant of a failed bear out of the run. -/
def withdraw (failed : Bear w) (s : Session w ρ) (b : Bear w) : Session w ρ :=
  let s := s.note (.withdrawn b failed)
  { s with graph := s.graph.resolve b, buffers := s.buffers.erase b }

/-- Takes every transitive dependant of a failed bear out of the run. -/
def withdrawDependants (s : Session w ρ) (failed : Bear w) : Session w ρ :=
  match s.graph.allDependantsOf failed with
  | .error cycle => s.note (.untraced failed cycle)
  | .ok dependants => dependants.foldl (withdraw failed) s

/-- The other tasks in flight. -/
def others (s : Session w ρ) (t : Ticket w ρ) : List (Ticket w ρ) :=
  s.inFlight.filter (·.id ≠ t.id)

/-- Crosses a task off. -/
def retire (s : Session w ρ) (t : Ticket w ρ) : Session w ρ :=
  { s with
    running := match s.running.get? t.bear with
      | some ids => s.running.insert t.bear (ids.erase t.id)
      | none => s.running
    inFlight := s.others t }

/-- What a task ended with, as far as the other bears are concerned. -/
def absorb (s : Session w ρ) (t : Ticket w ρ) : Outcome ρ → Session w ρ
  | .ok results => s.deliver t.bear results
  | .error failure => (s.note (.taskFailed t.bear failure)).withdrawDependants t.bear

/-- Ends a task that is in flight, and the work of its bear if it was the last one. -/
def finish (s : Session w ρ) (t : Ticket w ρ) (outcome : Outcome ρ) : Session w ρ :=
  ((s.absorb t outcome).retire t).settle [t.bear]

/-! ## The end -/

/-- Says how the run ended. -/
def close (s : Session w ρ) : Session w ρ :=
  if s.graph.isResolved then s.note (.finished s.scheduled.length)
  else s.note (.stranded s.graph.dependants)

/-- The description of a session. -/
def inspect (s : Session w ρ) : String :=
  let tickets (ids : List Nat) : String :=
    Description.braces (ids.map fun i => Description.call "TaskId" (Decimal.text i))
  Description.openRecord "Session"
    [("bears", Description.brackets (s.supplied.map label)),
     ("entrypoints", Description.brackets (s.roster.entryPoints.map label)),
     ("tracker", s.graph.inspect),
     ("running_tasks",
       Description.map (s.running.entries.map fun e => (label e.1, tickets e.2)))]

end Session

end AnalysisScheduler
