import AnalysisScheduler.Proofs.Run.Steps

/-!
# Runs and their logs

A run of a session launches it and then lets tasks end one after another: any task that is in
flight, with any outcome (`Session.Run`). Its log has the ends of the tasks and the events of the
history in the order in which they happened, so it tells what had ended when a bear was asked.

Every prefix of a log that ends with an event belongs to a state of the run in which no further
task has ended (`Session.Run.at_event`).
-/

namespace AnalysisScheduler

variable {w : Workspace} {ρ σ : Type}

/-- A task that has ended, and what it ended with. -/
structure Ending (w : Workspace) (ρ : Type) where
  ticket : Ticket w ρ
  outcome : Outcome ρ

/-- What a run shows from outside, at one moment. -/
inductive Moment (w : Workspace) (ρ : Type) where
  /-- A task ends; what follows from it comes next. -/
  | ended (ending : Ending w ρ)
  | event (event : Event w ρ)

/-- The notice of a failed task that an ending calls for. -/
def Ending.failure? (e : Ending w ρ) : Option (Notice w) :=
  match e.outcome with
  | .ok _ => none
  | .error failure => some (.taskFailed e.ticket.bear failure)

theorem mem_filterMap_iff_of_inverse {α β : Type} {pick : α → Option β} {make : β → α}
    (inverse : ∀ a b, pick a = some b ↔ a = make b) {l : List α} {b : β} :
    b ∈ l.filterMap pick ↔ make b ∈ l := by
  rw [List.mem_filterMap]
  constructor
  · rintro ⟨a, mem, picked⟩
    exact (inverse a b).1 picked ▸ mem
  · exact fun mem => ⟨make b, mem, (inverse _ b).2 rfl⟩

namespace History

def asked? : Event w ρ → Option (Bear w)
  | .asked b _ => some b
  | _ => none

def submitted? : Event w ρ → Option (Ticket w ρ)
  | .submitted t => some t
  | _ => none

def noticed? : Event w ρ → Option (Notice w)
  | .noticed n => some n
  | _ => none

/-- The bears that were asked for their tasks, in order. -/
def asked (h : List (Event w ρ)) : List (Bear w) := h.filterMap asked?

/-- The tasks that were handed to the executor, in order. -/
def submitted (h : List (Event w ρ)) : List (Ticket w ρ) := h.filterMap submitted?

/-- The notices, in order. -/
def notices (h : List (Event w ρ)) : List (Notice w) := h.filterMap noticed?

theorem mem_asked_iff {h : List (Event w ρ)} {b : Bear w} :
    b ∈ asked h ↔ ∃ deliveries, .asked b deliveries ∈ h := by
  unfold asked
  rw [List.mem_filterMap]
  constructor
  · rintro ⟨e, mem, same⟩
    cases e with
    | asked b' deliveries =>
      cases same
      exact ⟨deliveries, mem⟩
    | _ => cases same
  · exact fun ⟨_, mem⟩ => ⟨_, mem, rfl⟩

theorem mem_submitted_iff {h : List (Event w ρ)} {t : Ticket w ρ} :
    t ∈ submitted h ↔ .submitted t ∈ h :=
  mem_filterMap_iff_of_inverse fun e t => by cases e <;> simp [submitted?]

theorem mem_notices_iff {h : List (Event w ρ)} {n : Notice w} :
    n ∈ notices h ↔ .noticed n ∈ h :=
  mem_filterMap_iff_of_inverse fun e n => by cases e <;> simp [noticed?]

end History

namespace Log

def ending? : Moment w ρ → Option (Ending w ρ)
  | .ended e => some e
  | .event _ => none

def event? : Moment w ρ → Option (Event w ρ)
  | .ended _ => none
  | .event e => some e

/-- The tasks that have ended, in order. -/
def endings (log : List (Moment w ρ)) : List (Ending w ρ) := log.filterMap ending?

/-- The events without the ends of tasks. -/
def history (log : List (Moment w ρ)) : List (Event w ρ) := log.filterMap event?

theorem mem_endings_iff {log : List (Moment w ρ)} {e : Ending w ρ} :
    e ∈ endings log ↔ .ended e ∈ log :=
  mem_filterMap_iff_of_inverse fun m e => by cases m <;> simp [ending?]

theorem mem_history_iff {log : List (Moment w ρ)} {e : Event w ρ} :
    e ∈ history log ↔ .event e ∈ log :=
  mem_filterMap_iff_of_inverse fun m e => by cases m <;> simp [event?]

theorem endings_append (log more : List (Moment w ρ)) :
    endings (log ++ more) = endings log ++ endings more := List.filterMap_append

theorem history_append (log more : List (Moment w ρ)) :
    history (log ++ more) = history log ++ history more := List.filterMap_append

theorem endings_events (events : List (Event w ρ)) : endings (events.map .event) = [] := by
  induction events with
  | nil => rfl
  | cons _ _ ih => exact ih

theorem ended_not_mem_events (e : Ending w ρ) (events : List (Event w ρ)) :
    .ended e ∉ events.map Moment.event := by
  rw [← mem_endings_iff, endings_events]
  exact List.not_mem_nil

theorem history_events (events : List (Event w ρ)) : history (events.map .event) = events := by
  induction events with
  | nil => rfl
  | cons e _ ih => exact congrArg (e :: ·) ih

theorem endings_cons_ended (e : Ending w ρ) (log : List (Moment w ρ)) :
    endings (.ended e :: log) = e :: endings log := rfl

theorem history_cons_ended (e : Ending w ρ) (log : List (Moment w ρ)) :
    history (.ended e :: log) = history log := rfl

/-- An ending stands at a place of the log. -/
theorem exists_split_of_endings {log : List (Moment w ρ)} {earlier later : List (Ending w ρ)}
    {e : Ending w ρ} (split : endings log = earlier ++ e :: later) :
    ∃ before after, log = before ++ .ended e :: after ∧ endings before = earlier := by
  obtain ⟨x, y, rfl, found, rest⟩ := List.filterMap_eq_append_iff.1 split
  obtain ⟨events, m, after, rfl, none, this, _⟩ := List.filterMap_eq_cons_iff.1 rest
  cases m with
  | event => cases this
  | ended e' =>
    cases this
    refine ⟨x ++ events, after, (List.append_assoc ..).symm, ?_⟩
    have silent : endings events = [] := List.filterMap_eq_nil_iff.2 none
    rw [endings_append, silent, List.append_nil]
    exact found

/-- The end of a task that is found in a log is its last one or is followed by that. -/
theorem split_at_ended {log before after : List (Moment w ρ)} {e last : Ending w ρ}
    {events : List (Event w ρ)}
    (split : log ++ .ended last :: events.map .event = before ++ .ended e :: after) :
    (∃ mid, log = before ++ .ended e :: mid ∧
        after = mid ++ .ended last :: events.map .event) ∨
      before = log ∧ e = last ∧ after = events.map .event := by
  rcases List.append_eq_append_iff.1 split with ⟨mid, rfl, tail⟩ | ⟨mid, rfl, tail⟩
  · cases mid with
    | nil =>
      cases tail
      exact .inr ⟨List.append_nil _, rfl, rfl⟩
    | cons m mid =>
      -- What follows from the last ending has no further ending in it.
      exact absurd ((List.cons.inj tail).2 ▸ List.mem_append_right mid List.mem_cons_self)
        (ended_not_mem_events e events)
  · cases mid with
    | nil =>
      cases tail
      exact .inr ⟨(List.append_nil _).symm, rfl, rfl⟩
    | cons m mid =>
      obtain ⟨rfl, rest⟩ := List.cons.inj tail
      exact .inl ⟨mid, rfl, rest⟩

end Log

namespace Session

/-- What has happened since an earlier state. -/
def since (s earlier : Session w ρ) : List (Event w ρ) := s.history.drop earlier.history.length

/-- `Run sink s taken log now`: the session `s` with the sink in state `taken` can get to `now`,
which shows `log` on the way. Any task in flight may end next, with any outcome. -/
inductive Run (sink : Sink σ ρ) (s : Session w ρ) (taken : σ) :
    List (Moment w ρ) → Session w ρ × σ → Prop
  | launched : Run sink s taken (s.launch.history.map .event) (s.launch, taken)
  | ended {log : List (Moment w ρ)} {now : Session w ρ × σ} {t : Ticket w ρ} :
      Run sink s taken log now → t ∈ now.1.inFlight → (outcome : Outcome ρ) →
      Run sink s taken
        (log ++ .ended ⟨t, outcome⟩ ::
          ((complete sink now t outcome).1.since now.1).map .event)
        (complete sink now t outcome)

theorem history_append_since {s earlier : Session w ρ} (grown : earlier.history <+: s.history) :
    earlier.history ++ s.since earlier = s.history :=
  (List.prefix_iff_eq_append.1 grown)

namespace Run

variable {sink : Sink σ ρ} {s : Session w ρ} {taken : σ} {log : List (Moment w ρ)}
  {now : Session w ρ × σ}

/-- The log tells the history of the session. -/
theorem history_log (run : Run sink s taken log now) : Log.history log = now.1.history := by
  induction run with
  | launched => exact Log.history_events _
  | @ended log now t _ _ outcome ih =>
    rw [Log.history_append, Log.history_cons_ended, Log.history_events, ih]
    exact history_append_since (history_complete sink now t outcome)

theorem endings_ended (log : List (Moment w ρ)) (e : Ending w ρ) (events : List (Event w ρ)) :
    Log.endings (log ++ .ended e :: events.map .event) = Log.endings log ++ [e] := by
  rw [Log.endings_append, Log.endings_cons_ended, Log.endings_events]

/-- An event of a run happened in a state of the run, before any further task ended. -/
theorem at_event (run : Run sink s taken log now) {before after : List (Moment w ρ)}
    {e : Event w ρ} (split : log = before ++ .event e :: after) :
    ∃ log' now', Run sink s taken log' now' ∧ log' <+: log ∧ before ++ [.event e] <+: log' ∧
      Log.endings log' = Log.endings before := by
  induction run generalizing before after with
  | launched =>
    refine ⟨_, _, .launched, List.prefix_refl _, ?_, ?_⟩
    · exact split ▸ ⟨after, by simp⟩
    · -- Nothing ends before the launch is over.
      have none := Log.endings_events s.launch.history
      rw [split, Log.endings_append, List.append_eq_nil_iff] at none
      rw [none.1, Log.endings_events]
  | @ended log now t run flying outcome ih =>
    rcases List.append_eq_append_iff.1 split with ⟨mid, rfl, tail⟩ | ⟨mid, rfl, tail⟩
    · cases mid with
      | nil => cases tail
      | cons m mid =>
        -- The event is one of those that the last task to end has brought about.
        obtain ⟨rfl, rest⟩ := List.cons.inj tail
        refine ⟨_, _, .ended run flying outcome, List.prefix_refl _, ?_, ?_⟩
        · rw [tail]
          exact ⟨after, by simp⟩
        · have none := Log.endings_events ((complete sink now t outcome).1.since now.1)
          rw [rest] at none
          have first := List.append_eq_nil_iff.1 ((Log.endings_append _ _).symm.trans none)
          rw [endings_ended, Log.endings_append, Log.endings_cons_ended, first.1]
    · cases mid with
      | nil => cases tail
      | cons m mid =>
        obtain ⟨rfl, _⟩ := List.cons.inj tail
        obtain ⟨log', now', run', earlier, reached, ends⟩ := ih rfl
        exact ⟨log', now', run', earlier.trans (List.prefix_append _ _), reached, ends⟩

end Run

end Session

/-! ## A run of two bears -/

namespace Sample

/-- A kind that looks at everything, and one with a task for each result of the first. -/
def workspace : Workspace where
  kindCount := 2
  kinds := #v[⟨"Lint", .corpus, [], .empty⟩, ⟨"Report", .delivery, [0], .empty⟩]
  sections := #[.new "all"]
  corpora := #[.ofList []]

/-- The only bear that is supplied; the one that it depends on has to be made. -/
def report : Bear workspace :=
  ⟨0, ⟨1, by decide⟩, ⟨⟨0, by decide⟩, ⟨0, by decide⟩⟩, by decide +kernel⟩

def session : Session workspace Nat :=
  match (Session.start 1 [report] : _ × Except _ (Session workspace Nat)).2 with
  | .ok s => s
  | .error _ => .ofRoster [report] .empty []

theorem built : (Session.start 1 [report]).2 = .ok session := by
  have ok : (Session.start 1 [report] : _ × Except _ (Session workspace Nat)).2.isOk = true := by
    decide +kernel
  unfold session
  cases h : (Session.start 1 [report] : _ × Except _ (Session workspace Nat)).2 with
  | ok s => rfl
  | error e =>
    rw [h] at ok
    cases ok

def sink : Sink Unit Nat := ⟨fun _ _ => ((), .accepted)⟩

/-- The task that is in flight first. -/
def ticket : Ticket workspace Nat := session.launch.inFlight.get ⟨0, by decide +kernel⟩

def last (outcome : Outcome Nat) : Session workspace Nat × Unit :=
  Session.complete sink (session.launch, ()) ticket outcome

def log (outcome : Outcome Nat) : List (Moment workspace Nat) :=
  session.launch.history.map .event ++ .ended ⟨ticket, outcome⟩ ::
    ((last outcome).1.since session.launch).map .event

theorem run (outcome : Outcome Nat) :
    Session.Run sink session () (log outcome) (last outcome) :=
  .ended .launched (List.get_mem ..) outcome

theorem endings_log (outcome : Outcome Nat) : Log.endings (log outcome) = [⟨ticket, outcome⟩] := by
  rw [log, Session.Run.endings_ended, Log.endings_events]
  rfl

end Sample

end AnalysisScheduler
