import AnalysisScheduler.Proofs.Run.Offers
import AnalysisScheduler.Proofs.Run.Snapshot

/-!
# The order in which bears reach the sink

When a task ends, the bears that this frees are asked at once, and only then its results are
offered; but they are offered before any other task ends (`Session.Run.after_ended`). When a task of
a bear ends, the tasks of everything that the bear depends on have all ended
(`Session.Run.finished_of_ended`). So their results have all been offered before
(`offered_after_dependencies`).
-/

namespace AnalysisScheduler

variable {w : Workspace} {ρ σ : Type}

/-- An element of joined lists comes from one of them, and what follows it from that one and the
later ones. -/
theorem exists_split_of_flatMap {α β : Type} {f : α → List β} {l : List α} {before after : List β}
    {y : β} (split : l.flatMap f = before ++ y :: after) :
    ∃ l₁ a l₂, l = l₁ ++ a :: l₂ ∧ y ∈ f a ∧ y :: after <:+ (a :: l₂).flatMap f := by
  induction l generalizing before with
  | nil => exact absurd split.symm (List.append_ne_nil_of_right_ne_nil _ (List.cons_ne_nil _ _))
  | cons a rest ih =>
    have whole := split
    rw [List.flatMap_cons, List.append_eq_append_iff] at split
    rcases split with ⟨earlier, rfl, later⟩ | ⟨here, inside, following⟩
    · obtain ⟨l₁, a', l₂, rfl, found⟩ := ih later
      exact ⟨a :: l₁, a', l₂, rfl, found⟩
    · cases here with
      | nil =>
        obtain ⟨l₁, a', l₂, rfl, found⟩ := @ih [] following.symm
        exact ⟨a :: l₁, a', l₂, rfl, found⟩
      | cons z zs =>
        obtain ⟨rfl, _⟩ := List.cons.inj following
        refine ⟨[], a, rest, rfl, ?_, before, whole.symm⟩
        exact inside ▸ List.mem_append_right _ List.mem_cons_self

namespace Session.Run

variable {sink : Sink σ ρ} {s : Session w ρ} {taken : σ} {log : List (Moment w ρ)}
  {now : Session w ρ × σ} {nextId : Nat} {supplied : List (Bear w)}

/-- After the end of a task come the bears that it sets free, then its results are offered, and all
this before another task ends. -/
theorem after_ended (run : Run sink s taken log now) {before after : List (Moment w ρ)}
    {e : Ending w ρ} (split : log = before ++ .ended e :: after) :
    ∃ own told next, after = (own ++ told).map .event ++ next ∧
      History.ofSink own = [] ∧ History.ofSink told = told ∧
      History.offered told = e.outcome.toOption.getD [] ∧
      ∀ m ∈ next.head?, ∃ e', m = .ended e' := by
  induction run generalizing before after with
  | launched =>
    exact absurd (split ▸ List.mem_append_right _ List.mem_cons_self)
      (Log.ended_not_mem_events e _)
  | @ended log now t run flying outcome ih =>
    rcases Log.split_at_ended split with ⟨mid, earlier, rfl⟩ | ⟨rfl, rfl, rfl⟩
    · obtain ⟨own, told, next, rfl, mine, yours, offered, ends⟩ := ih earlier
      refine ⟨own, told, _, List.append_assoc .., mine, yours, offered, ?_⟩
      cases next with
      | nil => exact fun m last => ⟨_, (Option.some.inj last).symm⟩
      | cons m next => exact ends
    · refine ⟨(now.1.finish t outcome).since now.1,
        sink.transcript now.2 (outcome.toOption.getD []), [], ?_,
        now.1.ofSink_since_finish t outcome, sink.ofSink_transcript _ _,
        sink.offered_transcript _ _, fun m last => nomatch last⟩
      rw [since_complete, List.append_nil]

/-- Before a task of a bear ends, the bear was asked. -/
theorem asked_of_ended (built : (Session.start nextId supplied).2 = .ok s)
    (run : Run sink s taken log now) {earlier later : List (Ending w ρ)} {e : Ending w ρ}
    (split : Log.endings log = earlier ++ e :: later) :
    ∃ before deliveries after, log = before ++ .event (.asked e.ticket.bear deliveries) :: after ∧
      Log.endings before <+: earlier := by
  obtain ⟨x, y, whole, rfl⟩ := Log.exists_split_of_endings split
  have submitted := run.submitted_of_ended built whole
  obtain ⟨x', x'', rfl⟩ := List.append_of_mem
    (Log.mem_history_iff.1 (History.mem_submitted_iff.1 submitted))
  -- In the state in which the task is submitted, its bear has been asked.
  obtain ⟨log', now', run', part, reached, ends⟩ :=
    run.at_event (whole.trans (List.append_assoc ..))
  have books := (run'.invariant built).books
  have there : e.ticket ∈ History.submitted now'.1.history := by
    rw [← run'.history_log, History.mem_submitted_iff, Log.mem_history_iff]
    exact reached.subset (List.mem_append_right _ List.mem_cons_self)
  have asked := books.owner e.ticket there
  rw [← books.asked, ← run'.history_log, History.mem_asked_iff] at asked
  obtain ⟨deliveries, mem⟩ := asked
  obtain ⟨before, after, rfl⟩ := List.append_of_mem (Log.mem_history_iff.1 mem)
  obtain ⟨rest, rfl⟩ := part
  refine ⟨before, deliveries, after ++ rest, List.append_assoc .., ?_⟩
  have earlier := Log.endings_append before (.event (.asked e.ticket.bear deliveries) :: after)
  rw [ends] at earlier
  refine List.IsPrefix.trans ⟨_, earlier.symm⟩ ?_
  rw [Log.endings_append]
  exact List.prefix_append _ _

/-- When a task of a bear ends, all tasks of the bears that it depends on have ended, and none of
them with a failure. -/
theorem finished_of_ended (built : (Session.start nextId supplied).2 = .ok s)
    (run : Run sink s taken log now) {earlier later : List (Ending w ρ)} {e : Ending w ρ}
    (split : Log.endings log = earlier ++ e :: later) {a : Bear w}
    (path : Relation.TransGen s.graph.Edge a e.ticket.bear) :
    (∀ t ∈ History.submitted (Log.history log), t.bear = a →
        ∃ results, ⟨t, .ok results⟩ ∈ earlier) ∧
      ∀ e' ∈ e :: later, e'.ticket.bear ≠ a := by
  obtain ⟨before, deliveries, after, whole, more, rfl⟩ := run.asked_of_ended built split
  have finished := (run.at_asked built whole).2.2 a path
  refine ⟨fun t submitted mine => ?_, fun e' mem mine => ?_⟩
  · have ended := finished.ended.mem_iff.2 (List.mem_filter.2 ⟨submitted, decide_eq_true mine⟩)
    obtain ⟨e', found, rfl⟩ := List.mem_map.1 ended
    obtain ⟨mem, _⟩ := List.mem_filter.1 found
    obtain ⟨results, ok⟩ := finished.succeeded e' mem mine
    exact ⟨results, List.mem_append_left _ (ok ▸ mem)⟩
  · -- All that is submitted for `a` has ended before its dependant was asked; none is left.
    have some : 0 < ((e :: later).filter (·.ticket.bear = a)).length :=
      List.length_pos_of_mem (List.mem_filter.2 ⟨mem, decide_eq_true mine⟩)
    have all := finished.ended.length_eq
    have count := ((run.invariant built).books.submitted.filter (·.bear = a)).length_eq
    rw [← run.history_log, ← all, split, List.filter_append, List.filter_map, List.length_append,
      List.length_map, List.length_map] at count
    change _ = (((Log.endings before ++ more) ++ e :: later).filter
      (·.ticket.bear = a)).length + _ at count
    rw [List.filter_append, List.filter_append, List.length_append, List.length_append] at count
    omega

end Session.Run

/-- When a result of a bear is offered to the sink, all tasks of the bears that it depends on have
ended without a failure and all that they have brought has been offered. This is so although the
bears that a task sets free when it ends are asked before its own results are offered. -/
theorem offered_after_dependencies {nextId : Nat} {supplied : List (Bear w)} {s : Session w ρ}
    {sink : Sink σ ρ} {taken : σ} {log : List (Moment w ρ)} {now : Session w ρ × σ}
    (built : (Session.start nextId supplied).2 = .ok s) (run : Session.Run sink s taken log now) :
    (Log.offers log).map Prod.snd = History.offered (Log.history log) ∧
      (∀ before e after, log = before ++ .ended e :: after →
        ∃ own told next, after = (own ++ told).map .event ++ next ∧
          History.ofSink own = [] ∧ History.ofSink told = told ∧
          History.offered told = e.outcome.toOption.getD [] ∧
          ∀ m ∈ next.head?, ∃ e', m = .ended e') ∧
      ∀ a b, Relation.TransGen s.graph.Edge a b →
        ∀ before x after, Log.offers log = before ++ (b, x) :: after →
          (∀ t ∈ History.submitted (Log.history log), t.bear = a →
            ∃ results, ⟨t, .ok results⟩ ∈ Log.endings log) ∧
          (before.filter (·.1 = a)).map Prod.snd = Log.resultsOf log a ∧
          ∀ y, (a, y) ∉ after := by
  refine ⟨run.map_snd_offers built, fun before e after => run.after_ended, ?_⟩
  intro a b path before x after split
  have whole := run.offers_of_bear a
  rw [split] at whole
  rw [run.offers_eq] at split
  obtain ⟨earlier, e, later, ends, brought, following⟩ := exists_split_of_flatMap split
  have bear : e.ticket.bear = b := by
    obtain ⟨_, _, same⟩ := List.mem_map.1 brought
    exact congrArg Prod.fst same
  obtain ⟨finished, others⟩ := run.finished_of_ended built ends (bear ▸ path)
  have late : ∀ p ∈ (b, x) :: after, p.1 ≠ a := by
    intro p mem
    obtain ⟨e', mem', here⟩ := List.mem_flatMap.1 (following.subset mem)
    obtain ⟨_, _, rfl⟩ := List.mem_map.1 here
    exact others e' mem'
  have none := List.filter_eq_nil_iff.2 fun p mem same => late p mem (of_decide_eq_true same)
  rw [List.filter_append, none, List.append_nil] at whole
  refine ⟨fun t submitted mine => ?_, whole, fun y mem => late _ (List.mem_cons_of_mem _ mem) rfl⟩
  obtain ⟨results, ended⟩ := finished t submitted mine
  exact ⟨results, ends ▸ List.mem_append_left _ ended⟩

namespace Sample

/-- A task of the report. -/
def second : Ticket workspace Nat := (last (.ok [3, 4])).1.inFlight.get ⟨0, by decide +kernel⟩

/-- What has ended when that task has. -/
def both : List (Ending workspace Nat) := [⟨ticket, .ok [3, 4]⟩, ⟨second, .ok [7]⟩]

theorem run_both : ∃ log now, Session.Run sink session () log now ∧ Log.endings log = both := by
  refine ⟨_, _, .ended (run (.ok [3, 4])) (t := second) (List.get_mem ..) (.ok [7]), ?_⟩
  rw [Session.Run.endings_ended, endings_log]
  rfl

end Sample

theorem offered_after_dependencies_of_two :
    Relation.TransGen Sample.session.graph.Edge Sample.ticket.bear Sample.second.bear ∧
      ∃ log now before, Session.Run Sample.sink Sample.session () log now ∧
        Log.offers log = before ++ [(Sample.second.bear, 7)] ∧
        (before.filter (·.1 = Sample.ticket.bear)).map Prod.snd = [3, 4] := by
  have edge : Sample.session.graph.Edge Sample.ticket.bear Sample.second.bear := by
    decide +kernel
  obtain ⟨log, now, run, ends⟩ := Sample.run_both
  have split : Log.offers log = [(Sample.ticket.bear, 3), (Sample.ticket.bear, 4)] ++
      (Sample.second.bear, 7) :: [] := by
    rw [run.offers_eq, ends]
    rfl
  obtain ⟨_, _, causal⟩ := offered_after_dependencies Sample.built run
  obtain ⟨_, earlier, _⟩ := causal _ _ (.single edge) _ _ _ split
  refine ⟨.single edge, log, now, _, run, split, earlier.trans ?_⟩
  rw [Log.resultsOf, ends]
  decide +kernel

end AnalysisScheduler
