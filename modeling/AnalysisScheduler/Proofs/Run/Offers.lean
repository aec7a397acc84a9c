import AnalysisScheduler.Proofs.Run.Likeness
import AnalysisScheduler.Proofs.Run.Invariant

/-!
# What is offered to the sink

The sink is offered the results of the tasks that have succeeded, one list after another in the
order in which the tasks ended, and nothing else (`Session.Run.ofSink_history`). Its answers change
nothing: a run is determined by its sink and by which task ends next with what
(`Session.Run.eq_of_completions`), and with another sink the same tasks end with the same effect
(`Session.Run.exists_alike`). Only the notices on the answers differ, one for each offer that is
refused or panics (`offered_whatever_answered`).
-/

namespace AnalysisScheduler

variable {w : Workspace} {ρ σ σ' : Type}

/-- How a sink takes results that are offered one after another. -/
def Sink.answers (sink : Sink σ ρ) (taken : σ) : List ρ → List Reception
  | [] => []
  | r :: rest => (sink.receive taken r).2 :: sink.answers (sink.receive taken r).1 rest

namespace History

/-- The notices of what went wrong, in order. -/
def errors (h : List (Event w ρ)) : List (Notice w) := (notices h).filter (·.level = .error)

end History

/-- Which task has ended, and with what. -/
def Ending.completion (e : Ending w ρ) : Nat × Outcome ρ := (e.ticket.id, e.outcome)

namespace Log

/-- Which tasks have ended, and with what, in order. -/
def completions (log : List (Moment w ρ)) : List (Nat × Outcome ρ) :=
  (endings log).map Ending.completion

/-- All that tasks have brought, in the order in which they ended. -/
def results (log : List (Moment w ρ)) : List ρ :=
  (endings log).flatMap fun e => e.outcome.toOption.getD []

/-- Whether a moment is that of an answer of the sink. -/
def isAnswer : Moment w ρ → Bool
  | .ended _ => false
  | .event e => e.isAnswer

/-- A log apart from the notices on answers of the sink. -/
def unanswered (log : List (Moment w ρ)) : List (Moment w ρ) := log.filter (!isAnswer ·)

theorem results_ended (log : List (Moment w ρ)) (e : Ending w ρ) (events : List (Event w ρ)) :
    results (log ++ .ended e :: events.map .event) =
      results log ++ e.outcome.toOption.getD [] := by
  rw [results, Session.Run.endings_ended, List.flatMap_append, List.flatMap_singleton, results]

theorem completions_ended (log : List (Moment w ρ)) (e : Ending w ρ) (events : List (Event w ρ)) :
    completions (log ++ .ended e :: events.map .event) = completions log ++ [e.completion] := by
  rw [completions, Session.Run.endings_ended, List.map_append, List.map_singleton, completions]

theorem completions_events (events : List (Event w ρ)) : completions (events.map .event) = [] := by
  rw [completions, endings_events]
  rfl

theorem completions_ended_ne (log : List (Moment w ρ)) (e : Ending w ρ)
    (events none : List (Event w ρ)) :
    completions (log ++ .ended e :: events.map .event) ≠ completions (none.map .event) := by
  rw [completions_ended, completions_events]
  exact List.append_ne_nil_of_right_ne_nil _ (List.cons_ne_nil _ _)

theorem unanswered_ended (log : List (Moment w ρ)) (e : Ending w ρ) (events : List (Event w ρ)) :
    unanswered (log ++ .ended e :: events.map .event) =
      unanswered log ++ .ended e :: (History.unanswered events).map .event := by
  rw [unanswered, List.filter_append, List.filter_cons_of_pos rfl, List.filter_map]
  rfl

end Log

/-! ## The notices on answers -/

theorem Notice.level_of_isOfSink {n : Notice w} (ofSink : n.isOfSink = true) :
    n.level = .error := by
  cases n with
  | sinkFailed => rfl
  | sinkPanicked => rfl
  | _ => cases ofSink

theorem Notice.isTaskFailed_eq (n : Notice w) :
    n.isTaskFailed = (decide (n.level = .error) && !n.isOfSink) := by
  cases n <;> rfl

namespace History

/-- What went wrong and is not about the sink are the failures of tasks. -/
theorem errors_not_of_sink (h : List (Event w ρ)) :
    (errors h).filter (!·.isOfSink) = failures h := by
  rw [errors, failures, List.filter_filter]
  exact List.filter_congr fun n _ => (Bool.and_comm ..).trans n.isTaskFailed_eq.symm

theorem notices_noticed (ns : List (Notice w)) :
    notices (ns.map (Event.noticed : Notice w → Event w ρ)) = ns := by
  rw [notices, List.filterMap_map]
  exact List.filterMap_some

theorem notices_ofSink (h : List (Event w ρ)) :
    notices (ofSink h) = (notices h).filter Notice.isOfSink := by
  unfold notices ofSink
  rw [List.filterMap_filter, List.filter_filterMap]
  refine List.filterMap_congr fun e _ => ?_
  cases e <;> rfl

theorem errors_of_sink (h : List (Event w ρ)) :
    (errors h).filter Notice.isOfSink = notices (ofSink h) := by
  rw [notices_ofSink, errors, List.filter_filter]
  refine List.filter_congr fun n _ => ?_
  cases n <;> rfl

end History

namespace Sink

theorem transcript_append (sink : Sink σ ρ) (taken : σ) (results more : List ρ) :
    (sink.transcript taken (results ++ more) : List (Event w ρ)) =
      sink.transcript taken results ++ sink.transcript (sink.after taken results) more := by
  induction results generalizing taken with
  | nil => rfl
  | cons r rest ih =>
    rw [List.cons_append, transcript, ih, ← List.append_assoc]
    rfl

theorem after_append (sink : Sink σ ρ) (taken : σ) (results more : List ρ) :
    sink.after taken (results ++ more) = sink.after (sink.after taken results) more :=
  List.foldl_append

theorem offered_transcript (sink : Sink σ ρ) (taken : σ) (results : List ρ) :
    History.offered (sink.transcript taken results : List (Event w ρ)) = results :=
  (sink.filterMap_transcript (fun _ _ => rfl) taken results).trans List.filterMap_some

theorem notices_transcript (sink : Sink σ ρ) (taken : σ) (results : List ρ) :
    History.notices (sink.transcript taken results : List (Event w ρ)) =
      (sink.answers taken results).flatMap Reception.notices := by
  induction results generalizing taken with
  | nil => rfl
  | cons r rest ih =>
    rw [transcript, answers, List.flatMap_cons, ← ih]
    exact (History.notices_append ..).trans (congrArg (· ++ _) (History.notices_noticed _))

theorem ofSink_transcript (sink : Sink σ ρ) (taken : σ) (results : List ρ) :
    History.ofSink (sink.transcript taken results : List (Event w ρ)) =
      sink.transcript taken results := by
  induction results generalizing taken with
  | nil => rfl
  | cons r rest ih =>
    have answers : History.ofSink ((sink.receive taken r).2.notices.map
        (Event.noticed : Notice w → Event w ρ)) = (sink.receive taken r).2.notices.map .noticed :=
      List.filter_eq_self.2 fun e mem => by
        obtain ⟨n, found, rfl⟩ := List.mem_map.1 mem
        exact Reception.isOfSink found
    rw [transcript, History.ofSink_append, ih]
    exact congrArg (fun notes => .offered r :: (notes ++ _)) answers

end Sink

namespace Session

variable {sink : Sink σ ρ} {sink' : Sink σ' ρ} {s : Session w ρ} {taken : σ} {taken' : σ'}
  {log log' : List (Moment w ρ)} {now now' : Session w ρ × σ} {nextId : Nat}
  {supplied : List (Bear w)}

theorem ofSink_complete (sink : Sink σ ρ) (now : Session w ρ × σ) (t : Ticket w ρ)
    (outcome : Outcome ρ) :
    History.ofSink (complete sink now t outcome).1.history =
      History.ofSink now.1.history ++ sink.transcript now.2 (outcome.toOption.getD []) := by
  rw [complete_eq]
  show History.ofSink ((now.1.finish t outcome).history ++ _) = _
  rw [History.ofSink_append, ofSink_finish, sink.ofSink_transcript]

theorem ofSink_launch (built : (Session.start nextId supplied).2 = .ok s) :
    History.ofSink s.launch.history = [] := by
  obtain ⟨r, said, rfl, _, debug⟩ := exists_roster_of_start built
  refine ((ofSink_settle _ _).trans (ofSink_askAll _ _)).trans ?_
  refine List.filter_eq_nil_iff.2 fun e mem told => ?_
  obtain ⟨n, rfl, quiet⟩ := level_of_ofRoster debug mem
  exact Level.noConfusion (quiet.symm.trans (Notice.level_of_isOfSink told))

namespace Run

/-- All that happens between a session and its sink is that the results of the tasks are offered in
the order in which the tasks end, and that the sink answers. -/
theorem ofSink_history (built : (Session.start nextId supplied).2 = .ok s)
    (run : Run sink s taken log now) :
    History.ofSink now.1.history = sink.transcript taken (Log.results log) ∧
      now.2 = sink.after taken (Log.results log) := by
  induction run with
  | launched =>
    rw [Log.results, Log.endings_events]
    exact ⟨ofSink_launch built, rfl⟩
  | @ended log now t run flying outcome ih =>
    obtain ⟨told, state⟩ := ih
    rw [Log.results_ended, ofSink_complete, told, state, sink.transcript_append, sink.after_append]
    refine ⟨rfl, ?_⟩
    rw [complete_eq, state]

theorem offered_eq (built : (Session.start nextId supplied).2 = .ok s)
    (run : Run sink s taken log now) : History.offered (Log.history log) = Log.results log := by
  rw [run.history_log, History.offered_eq_ofSink, (run.ofSink_history built).1]
  exact sink.offered_transcript taken _

/-- The offers of the bears are what the sink is offered. -/
theorem map_snd_offers (built : (Session.start nextId supplied).2 = .ok s)
    (run : Run sink s taken log now) :
    (Log.offers log).map Prod.snd = History.offered (Log.history log) := by
  rw [run.offered_eq built, run.offers_eq, Log.results, List.map_flatMap]
  refine List.flatMap_congr fun e _ => ?_
  rw [List.map_map]
  exact List.map_id _

/-- A run is determined by which tasks end with what. -/
theorem eq_of_completions (built : (Session.start nextId supplied).2 = .ok s)
    (run : Run sink s taken log now) (run' : Run sink s taken log' now')
    (same : Log.completions log' = Log.completions log) : log' = log ∧ now' = now := by
  induction run generalizing log' now' with
  | launched =>
    cases run' with
    | launched => exact ⟨rfl, rfl⟩
    | ended => exact absurd same (Log.completions_ended_ne _ _ _ _)
  | @ended log now t run flying outcome ih =>
    cases run' with
    | launched => exact absurd same.symm (Log.completions_ended_ne _ _ _ _)
    | @ended log' now' t' run' flying' outcome' =>
      rw [Log.completions_ended, Log.completions_ended] at same
      obtain ⟨earlier, last⟩ := List.append_inj' same rfl
      obtain ⟨rfl, rfl⟩ := ih run' earlier
      obtain ⟨number, rfl⟩ := Prod.mk.inj (List.singleton_inj.1 last)
      obtain rfl := List.inj_on_of_nodup_map (run.invariant built).books.nodup_inFlight
        flying' flying number
      exact ⟨rfl, rfl⟩

/-- A run has come by every part of what has ended in it. -/
theorem at_completions (run : Run sink s taken log now) {done : List (Nat × Outcome ρ)}
    (part : done <+: Log.completions log) :
    ∃ log₁ now₁, Run sink s taken log₁ now₁ ∧ log₁ <+: log ∧ Log.completions log₁ = done := by
  induction run with
  | launched =>
    rw [Log.completions_events, List.prefix_nil] at part
    exact ⟨_, _, .launched, List.prefix_refl _, part ▸ Log.completions_events _⟩
  | @ended log now t run flying outcome ih =>
    rw [Log.completions_ended, List.prefix_concat_iff] at part
    rcases part with whole | part
    · exact ⟨_, _, .ended run flying outcome, List.prefix_refl _,
        (Log.completions_ended ..).trans whole.symm⟩
    · obtain ⟨log₁, now₁, run₁, earlier, ends⟩ := ih part
      exact ⟨log₁, now₁, run₁, earlier.trans (List.prefix_append _ _), ends⟩

/-- With another sink the same tasks can end with the same effect. -/
theorem exists_alike (run : Run sink s taken log now) (sink' : Sink σ' ρ) (taken' : σ') :
    ∃ log' now', Run sink' s taken' log' now' ∧ Log.completions log' = Log.completions log ∧
      Log.unanswered log' = Log.unanswered log ∧ Alike now.1 now'.1 := by
  induction run with
  | launched => exact ⟨_, _, .launched, rfl, rfl, .refl _⟩
  | @ended log now t run flying outcome ih =>
    obtain ⟨log', now', run', ends, like, alike⟩ := ih
    have flying' : t ∈ now'.1.inFlight := by
      obtain ⟨_, same, _⟩ := alike
      rw [same]
      exact flying
    have next := alike.complete sink sink' t outcome
    refine ⟨_, _, .ended run' flying' outcome, ?_, ?_, next⟩
    · rw [Log.completions_ended, Log.completions_ended, ends]
    · rw [Log.unanswered_ended, Log.unanswered_ended, like,
        alike.since next (history_complete sink now t outcome)
          (history_complete sink' now' t outcome)]

end Run

end Session

/-! ## Offers and answers -/

/-- The sink is offered the results of the tasks that have succeeded, list by list in the order in
which the tasks ended. What goes wrong is each failed task and each offer that is refused or
panics.

The answers make no other difference. With another sink the same tasks can end in the same order
with the same outcomes. Wherever this leads, after each step, the first run has been in the same
state, apart from its history, and the part of its log up to there differs only in the notices on
answers: the same bears were asked with the same deliveries, the same tasks submitted and the same
results offered. -/
theorem offered_whatever_answered {nextId : Nat} {supplied : List (Bear w)} {s : Session w ρ}
    {sink : Sink σ ρ} {taken : σ} {log : List (Moment w ρ)} {now : Session w ρ × σ}
    (built : (Session.start nextId supplied).2 = .ok s) (run : Session.Run sink s taken log now) :
    History.offered (Log.history log) =
        (Log.endings log).flatMap (fun e => e.outcome.toOption.getD []) ∧
      (History.errors (Log.history log)).filter (!·.isOfSink) =
        (Log.endings log).filterMap Ending.failure? ∧
      (History.errors (Log.history log)).filter (·.isOfSink) =
        (sink.answers taken (History.offered (Log.history log))).flatMap Reception.notices ∧
      now.2 = sink.after taken (History.offered (Log.history log)) ∧
      ∀ {τ : Type} (sink' : Sink τ ρ) (taken' : τ),
        (∃ log' now', Session.Run sink' s taken' log' now' ∧
          Log.completions log' = Log.completions log) ∧
        ∀ log' now', Session.Run sink' s taken' log' now' →
          Log.completions log' <+: Log.completions log →
          ∃ log₁ now₁, Session.Run sink s taken log₁ now₁ ∧ log₁ <+: log ∧
            Log.completions log₁ = Log.completions log' ∧
            Log.unanswered log₁ = Log.unanswered log' ∧
            now₁.1 = { now'.1 with history := now₁.1.history } := by
  obtain ⟨told, state⟩ := run.ofSink_history built
  have offered := run.offered_eq built
  refine ⟨offered, ?_, ?_, offered ▸ state, fun sink' taken' => ⟨?_, ?_⟩⟩
  · rw [History.errors_not_of_sink, run.history_log]
    exact (run.invariant built).books.failures
  · rw [History.errors_of_sink, offered, run.history_log, told]
    exact sink.notices_transcript taken _
  · obtain ⟨log', now', run', ends, _⟩ := run.exists_alike sink' taken'
    exact ⟨log', now', run', ends⟩
  · intro log' now' run' part
    obtain ⟨log₁, now₁, run₁, earlier, ends⟩ := run.at_completions part
    -- The other run is the only one that could go like this part.
    obtain ⟨log₂, now₂, run₂, ends₂, like, h, same, _⟩ := run₁.exists_alike sink' taken'
    obtain ⟨rfl, rfl⟩ := run₂.eq_of_completions built run' (ends.symm.trans ends₂.symm)
    exact ⟨log₁, now₁, run₁, earlier, ends, like.symm, by rw [same]⟩

namespace Sample

/-- A sink that refuses what comes first and then panics. -/
def fussy : Sink Bool Nat :=
  ⟨fun seen _ => (true, if seen then .panicked else .refused ⟨"full", []⟩)⟩

theorem run_fussy : ∃ log now, Session.Run fussy session false log now ∧
    Log.endings log = [⟨ticket, .ok [3, 4]⟩] := by
  refine ⟨_, _, .ended .launched (t := ticket) (List.get_mem ..) (.ok [3, 4]), ?_⟩
  rw [Session.Run.endings_ended, Log.endings_events]
  rfl

end Sample

theorem offered_whatever_answered_of_fussy :
    ∃ log now, Session.Run Sample.fussy Sample.session false log now ∧
      History.offered (Log.history log) = [3, 4] ∧
      (History.errors (Log.history log)).filter (·.isOfSink) =
        [.sinkFailed ⟨"full", []⟩, .sinkPanicked] ∧
      Log.completions (Sample.log (.ok [3, 4])) = Log.completions log ∧
      ∃ log₁ now₁, Session.Run Sample.fussy Sample.session false log₁ now₁ ∧ log₁ <+: log ∧
        Log.unanswered log₁ = Log.unanswered (Sample.log (.ok [3, 4])) := by
  obtain ⟨log, now, run, ends⟩ := Sample.run_fussy
  obtain ⟨offered, _, answers, _, others⟩ := offered_whatever_answered Sample.built run
  rw [ends] at offered
  have same : Log.completions (Sample.log (.ok [3, 4])) = Log.completions log := by
    rw [Log.completions, Sample.endings_log, Log.completions, ends]
  obtain ⟨log₁, now₁, run₁, part, _, like, _⟩ :=
    (others Sample.sink ()).2 _ _ (Sample.run (.ok [3, 4])) (same ▸ List.prefix_refl _)
  exact ⟨log, now, run, offered, answers.trans (by rw [offered]; rfl), same, log₁, now₁, run₁,
    part, like⟩

end AnalysisScheduler
