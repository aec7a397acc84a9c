import AnalysisScheduler.Proofs.Run.Invariant

/-!
# When bears are asked

A bear is asked once, and not before every bear that it depends on, directly or through others, was
asked and has ended all its tasks without a failure (`asked_once_when_ready`). What was submitted
and what had ended at that moment is read off the log (`Session.Run.at_asked`): the state in which
the moment lies has the same endings as the part of the log before it.
-/

namespace AnalysisScheduler

variable {w : Workspace} {ρ σ : Type}

namespace History

variable {h h' : List (Event w ρ)}

theorem asked_mono (grown : h <+: h') : asked h <+: asked h' := grown.filterMap _

theorem submitted_mono (grown : h <+: h') : submitted h <+: submitted h' := grown.filterMap _

end History

namespace Log

variable {log log' : List (Moment w ρ)}

theorem history_mono (grown : log <+: log') : history log <+: history log' := grown.filterMap _

/-- A bear is done for good at a moment of a run: it was asked, and all the tasks that it submits in
the whole run have been submitted and have ended, each once and none of them with a failure. -/
structure HasFinished (log before : List (Moment w ρ)) (b : Bear w) : Prop where
  asked : b ∈ History.asked (history before)
  submitted : ∀ t ∈ History.submitted (history log), t.bear = b →
    t ∈ History.submitted (history before)
  ended : (((endings before).filter (·.ticket.bear = b)).map Ending.ticket).Perm
    ((History.submitted (history log)).filter (·.bear = b))
  succeeded : ∀ e ∈ endings before, e.ticket.bear = b → ∃ results, e.outcome = .ok results

end Log

namespace Session

section Standing

variable {r : Roster w} {done : List (Ending w ρ)} {todo fresh : List (Bear w)} {s : Session w ρ}

/-- All that an asked bear depends on is over, and was asked before it. -/
theorem Standing.over_and_mem_earlier (standing : Standing r done todo fresh s) (sound : r.Sound)
    {earlier later : List (Bear w)} {b u : Bear w} (split : s.scheduled = earlier ++ b :: later)
    (path : Relation.TransGen r.graph.Edge u b) : s.IsOver todo u ∧ u ∈ earlier := by
  have asked : b ∈ s.scheduled := split ▸ List.mem_append_right _ List.mem_cons_self
  induction path using Relation.TransGen.head_induction_on with
  | single edge =>
    exact ⟨(standing.ready b (.inl asked)).2.2 _ edge, standing.mem_earlier sound split edge⟩
  | @head u c edge _ ih =>
    obtain ⟨isOver, mem⟩ := ih
    obtain ⟨x, y, rfl⟩ := List.append_of_mem mem
    rw [List.append_assoc, List.cons_append] at split
    exact ⟨(standing.ready c (.inl isOver.1)).2.2 u edge,
      List.mem_append_left _ (standing.mem_earlier sound split edge)⟩

end Standing

variable {sink : Sink σ ρ} {s : Session w ρ} {taken : σ} {log : List (Moment w ρ)}
  {now : Session w ρ × σ} {nextId : Nat} {supplied : List (Bear w)}

theorem sound_of_start (built : (Session.start nextId supplied).2 = .ok s) :
    s.roster.Sound ∧ s.graph = s.roster.graph := by
  obtain ⟨r, said, rfl, sound, _⟩ := exists_roster_of_start built
  exact ⟨sound, rfl⟩

namespace Run

/-- A task is submitted before it ends. -/
theorem submitted_of_ended (built : (Session.start nextId supplied).2 = .ok s)
    (run : Run sink s taken log now) {before after : List (Moment w ρ)} {e : Ending w ρ}
    (split : log = before ++ .ended e :: after) :
    e.ticket ∈ History.submitted (Log.history before) := by
  induction run generalizing before after with
  | launched =>
    exact absurd (split ▸ List.mem_append_right _ List.mem_cons_self)
      (Log.ended_not_mem_events e _)
  | @ended log now t run flying outcome ih =>
    rcases Log.split_at_ended split with ⟨mid, earlier, _⟩ | ⟨rfl, rfl, _⟩
    · exact ih earlier
    · rw [run.history_log]
      exact (run.invariant built).books.mem_submitted flying

/-- What a bear submits is submitted when it is asked, and nothing is added later. -/
theorem submissions_of_asked (built : (Session.start nextId supplied).2 = .ok s)
    (run : Run sink s taken log now) {log' : List (Moment w ρ)} {now' : Session w ρ × σ}
    (run' : Run sink s taken log' now') (earlier : log' <+: log) {b : Bear w}
    (asked : b ∈ History.asked (Log.history log')) :
    (History.submitted (Log.history log)).filter (·.bear = b) =
      (History.submitted (Log.history log')).filter (·.bear = b) := by
  obtain ⟨deliveries, mem'⟩ := History.mem_asked_iff.1 asked
  have mem := (Log.history_mono earlier).subset mem'
  have tasks := (run.invariant built).books.tasks b deliveries (run.history_log ▸ mem)
  have tasks' := (run'.invariant built).books.tasks b deliveries (run'.history_log ▸ mem')
  rw [← run.history_log] at tasks
  rw [← run'.history_log] at tasks'
  have same := congrArg List.length (tasks.trans tasks'.symm)
  rw [List.length_map, List.length_map] at same
  have grown := (History.submitted_mono (Log.history_mono earlier)).filter (·.bear = b)
  exact (grown.eq_of_length same.symm).symm

/-- A run splits into the bears that were asked before one of them, that bear and the others. -/
theorem scheduled_at_asked (built : (Session.start nextId supplied).2 = .ok s)
    (run : Run sink s taken log now) {before : List (Moment w ρ)} {b : Bear w}
    {deliveries : Deliveries w ρ} (reached : before ++ [.event (.asked b deliveries)] <+: log) :
    ∃ later, now.1.scheduled = History.asked (Log.history before) ++ b :: later := by
  have grown := History.asked_mono (Log.history_mono reached)
  rw [run.history_log, (run.invariant built).books.asked, Log.history_append,
    History.asked_append] at grown
  obtain ⟨later, same⟩ := grown
  exact ⟨later, same.symm.trans (List.append_assoc ..)⟩

/-- When a bear is asked, everything that it depends on has finished, and what it is handed is what
its dependencies have brought. -/
theorem at_asked (built : (Session.start nextId supplied).2 = .ok s)
    (run : Run sink s taken log now) {before after : List (Moment w ρ)} {b : Bear w}
    {deliveries : Deliveries w ρ} (split : log = before ++ .event (.asked b deliveries) :: after) :
    b ∈ s.roster.bears ∧ deliveries = s.roster.received (Log.endings before) b ∧
      ∀ u, Relation.TransGen s.graph.Edge u b → Log.HasFinished log before u := by
  obtain ⟨sound, graph⟩ := sound_of_start built
  obtain ⟨log', now', run', earlier, reached, ends⟩ := run.at_event split
  obtain ⟨later, scheduled⟩ := run'.scheduled_at_asked built reached
  have inv := run'.invariant built
  rw [ends] at inv
  have asked : b ∈ now'.1.scheduled := scheduled ▸ List.mem_append_right _ List.mem_cons_self
  obtain ⟨here, kept, _⟩ := inv.standing.ready b (.inl asked)
  refine ⟨here, ?_, fun u path => ?_⟩
  · refine inv.stock.handed b deliveries (run'.history_log ▸ ?_)
    exact Log.mem_history_iff.2 (reached.subset (List.mem_append_right _ List.mem_cons_self))
  · -- In the state in which `b` is asked, `u` is over; its tasks are all among the endings so far.
    rw [graph] at path
    obtain ⟨isOver, mem⟩ := inv.standing.over_and_mem_earlier sound scheduled path
    have ended : (((Log.endings before).filter (·.ticket.bear = u)).map Ending.ticket).Perm
        ((History.submitted (Log.history log)).filter (·.bear = u)) := by
      have asked : u ∈ History.asked (Log.history log') := by
        rw [run'.history_log, inv.books.asked]
        exact isOver.1
      have perm := (inv.books.submitted.filter (·.bear = u)).symm
      have landed : now'.1.inFlight.filter (·.bear = u) = [] := filter_bear_eq_nil isOver.2.1
      rw [List.filter_append, landed, List.append_nil, List.filter_map] at perm
      rw [run.submissions_of_asked built run' earlier asked, run'.history_log]
      exact perm
    refine ⟨mem, fun t submitted mine => ?_, ended, fun e mem mine => ?_⟩
    · have found := ended.mem_iff.2 (List.mem_filter.2 ⟨submitted, decide_eq_true mine⟩)
      obtain ⟨e, mem, rfl⟩ := List.mem_map.1 found
      obtain ⟨x, y, rfl⟩ := List.append_of_mem
        (Log.mem_endings_iff.1 (List.mem_filter.1 mem).1)
      rw [List.append_assoc, List.cons_append] at split
      have first := run.submitted_of_ended built split
      exact (History.submitted_mono (Log.history_mono (List.prefix_append ..))).subset first
    · cases outcome : e.outcome with
      | ok results => exact ⟨results, rfl⟩
      | error failure => exact absurd ⟨e, mem, ⟨failure, outcome⟩, mine ▸ path⟩ kept

end Run

end Session

/-! ## Readiness -/

/-- In every run of a session, up to every point of it, a bear is asked at most once, and when it
is asked, all that it depends on has finished. So no bear is turned away when it is to be scheduled,
and the dependants of a failed bear can always be traced. -/
theorem asked_once_when_ready {nextId : Nat} {supplied : List (Bear w)} {s : Session w ρ}
    {sink : Sink σ ρ} {taken : σ} {log : List (Moment w ρ)} {now : Session w ρ × σ}
    (built : (Session.start nextId supplied).2 = .ok s) (run : Session.Run sink s taken log now) :
    (History.asked (Log.history log)).Nodup ∧
      (∀ before b deliveries after, log = before ++ .event (.asked b deliveries) :: after →
        ∀ u, Relation.TransGen s.graph.Edge u b → Log.HasFinished log before u) ∧
      (∀ b, .noticed (.rescheduled b) ∉ Log.history log) ∧
      ∀ b cycle, .noticed (.untraced b cycle) ∉ Log.history log := by
  have books := (run.invariant built).books
  rw [run.history_log]
  refine ⟨?_, ?_, fun b mem => ?_, fun b cycle mem => ?_⟩
  · rw [books.asked]
    exact books.nodup
  · intro before b deliveries after split u path
    exact (run.at_asked built split).2.2 u path
  · exact books.calm _ (History.mem_notices_iff.2 mem) rfl
  · exact books.calm _ (History.mem_notices_iff.2 mem) rfl

theorem asked_once_when_ready_of_two : ∃ before deliveries after,
    Sample.log (.ok [3, 4]) = before ++ .event (.asked Sample.report deliveries) :: after ∧
      ∀ u, Relation.TransGen Sample.session.graph.Edge u Sample.report →
        Log.HasFinished (Sample.log (.ok [3, 4])) before u := by
  have asked : Sample.report ∈ History.asked (Log.history (Sample.log (.ok [3, 4]))) := by
    decide +kernel
  obtain ⟨deliveries, mem⟩ := History.mem_asked_iff.1 asked
  obtain ⟨before, after, split⟩ := List.append_of_mem (Log.mem_history_iff.1 mem)
  exact ⟨before, deliveries, after, split,
    (asked_once_when_ready Sample.built (Sample.run (.ok [3, 4]))).2.1 before _ _ after split⟩

end AnalysisScheduler
