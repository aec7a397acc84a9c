import AnalysisScheduler.Proofs.Run.Readiness

/-!
# What bears are handed

When a bear is asked, it is handed all results of all its dependencies: under each kind that its own
kind depends on, those of the one bear of that kind at its site, in the order in which the tasks
ended (`snapshot_complete`). Under no other kind is there anything.
-/

namespace AnalysisScheduler

variable {w : Workspace} {ρ σ : Type}

/-- All that the tasks of a bear have brought, in the order in which they ended. -/
def Log.resultsOf (log : List (Moment w ρ)) (b : Bear w) : List ρ :=
  ((endings log).filter (·.ticket.bear = b)).flatMap fun e => e.results?.getD []

namespace Roster

variable {r : Roster w} {done : List (Ending w ρ)} {b d : Bear w}

/-- As long as no dependency fails, each of its endings is a supply. -/
theorem supplies_eq_map (succeeded : ∀ e ∈ done, r.graph.Edge e.ticket.bear b →
      ∃ results, e.outcome = .ok results) :
    r.supplies done b = (done.filter fun e => r.graph.Edge e.ticket.bear b).map fun e =>
      (e.ticket.bear, e.results?.getD []) := by
  refine List.filterMap_eq_map_iff_forall_eq_some.2 fun e mem => ?_
  obtain ⟨mem, edge⟩ := List.mem_filter.1 mem
  obtain ⟨results, ok⟩ := succeeded e mem (of_decide_eq_true edge)
  rw [Ending.results?, ok]
  rfl

/-- The kinds stand in the order in which the dependencies first ended a task. -/
theorem keys_received (succeeded : ∀ e ∈ done, r.graph.Edge e.ticket.bear b →
      ∃ results, e.outcome = .ok results) :
    (r.received done b).byKind.keys =
      ((done.filter fun e => r.graph.Edge e.ticket.bear b).map
        (·.ticket.bear.kindId)).eraseDups := by
  rw [received, Deliveries.keys_ofSupplies, supplies_eq_map succeeded, List.map_map]
  rfl

namespace Sound

/-- Under the kind of a dependency stands that dependency, with all that it has brought. -/
theorem get?_received (sound : r.Sound) (edge : r.graph.Edge d b)
    (succeeded : ∀ e ∈ done, r.graph.Edge e.ticket.bear b → ∃ results, e.outcome = .ok results) :
    (r.received done b).get? d.kindId =
      if done.filter (·.ticket.bear = d) = [] then none
      else some ⟨d, (done.filter (·.ticket.bear = d)).flatMap fun e => e.results?.getD []⟩ := by
  have mine : (r.supplies done b).filter (·.1.kindId = d.kindId) =
      (done.filter (·.ticket.bear = d)).map fun e => (e.ticket.bear, e.results?.getD []) := by
    rw [supplies_eq_map succeeded, List.filter_map, List.filter_filter]
    refine congrArg _ (List.filter_congr fun e _ => ?_)
    have iff : (e.ticket.bear.kindId = d.kindId ∧ r.graph.Edge e.ticket.bear b) ↔
        e.ticket.bear = d := by
      constructor
      · rintro ⟨kind, edge'⟩
        obtain ⟨here, _, site, _⟩ := (sound.edge_iff _ _).1 edge'
        obtain ⟨here', _, site', _⟩ := (sound.edge_iff _ _).1 edge
        exact sound.unique _ here _ here' (site.trans site'.symm) kind
      · intro same
        rw [same]
        exact ⟨rfl, edge⟩
    simp only [Function.comp_apply]
    rw [← Bool.decide_and, decide_eq_decide]
    exact iff
  refine (Deliveries.get?_ofSupplies ..).trans ?_
  rw [Deliveries.delivery?, mine]
  cases same : done.filter (·.ticket.bear = d) with
  | nil => rfl
  | cons e rest =>
    have first : e ∈ done.filter (·.ticket.bear = d) := same ▸ List.mem_cons_self
    have bear : e.ticket.bear = d := of_decide_eq_true (List.mem_filter.1 first).2
    rw [if_neg (List.cons_ne_nil _ _)]
    simp only [List.map_cons, List.head?_cons, Option.map_some, bear, List.flatMap_cons,
      List.flatMap_map]

theorem get?_received_of_not_mem (sound : r.Sound) {k : KindId w}
    (other : k ∉ w.dependenciesOf b.kindId) : (r.received done b).get? k = none := by
  have mine : (r.supplies done b).filter (·.1.kindId = k) = [] := by
    refine List.filter_eq_nil_iff.2 fun supply mem kind => ?_
    obtain ⟨e, ended, supplied⟩ := List.mem_filterMap.1 mem
    obtain ⟨results, _, rfl⟩ := Option.map_eq_some_iff.1 supplied
    have edge := of_decide_eq_true (List.mem_filter.1 ended).2
    exact other (of_decide_eq_true kind ▸ ((sound.edge_iff _ _).1 edge).2.2.2)
  refine (Deliveries.get?_ofSupplies ..).trans ?_
  rw [Deliveries.delivery?, mine]
  rfl

end Sound

end Roster

/-! ## The snapshot -/

/-- When a bear is asked, it is handed exactly what its dependencies have brought: under each kind
that it depends on, the only bear of that kind at its site, with the results of all its tasks in the
order in which they ended; nothing, if that bear had no tasks. The kinds stand in the order in which
the first task of each ended. -/
theorem snapshot_complete {nextId : Nat} {supplied : List (Bear w)} {s : Session w ρ}
    {sink : Sink σ ρ} {taken : σ} {log : List (Moment w ρ)} {now : Session w ρ × σ}
    (built : (Session.start nextId supplied).2 = .ok s) (run : Session.Run sink s taken log now)
    {before after : List (Moment w ρ)} {b : Bear w} {deliveries : Deliveries w ρ}
    (split : log = before ++ .event (.asked b deliveries) :: after) :
    (∀ k ∈ w.dependenciesOf b.kindId, ∃ d ∈ s.roster.bears, ∃ handed,
        (d.site = b.site ∧ d.kindId = k ∧
          ∀ d' ∈ s.roster.bears, d'.site = b.site → d'.kindId = k → d' = d) ∧
        .asked d handed ∈ Log.history before ∧ Log.HasFinished log before d ∧
        (((Log.endings before).filter (·.ticket.bear = d)).map (·.ticket.task)).Perm
          (d.tasks handed) ∧
        deliveries.get? k =
          if d.tasks handed = [] then none else some ⟨d, Log.resultsOf before d⟩) ∧
      (∀ k, k ∉ w.dependenciesOf b.kindId → deliveries.get? k = none) ∧
      deliveries.byKind.keys = (((Log.endings before).filter fun e =>
        s.graph.Edge e.ticket.bear b).map (·.ticket.bear.kindId)).eraseDups := by
  obtain ⟨sound, graph⟩ := Session.sound_of_start built
  obtain ⟨here, rfl, finished⟩ := run.at_asked built split
  rw [graph] at finished
  have succeeded : ∀ e ∈ Log.endings before, s.roster.graph.Edge e.ticket.bear b →
      ∃ results, e.outcome = .ok results := fun e mem edge =>
    (finished _ (.single edge)).succeeded e mem rfl
  refine ⟨fun k needed => ?_, fun k other => sound.get?_received_of_not_mem other, ?_⟩
  · obtain ⟨d, hereToo, site, rfl⟩ := sound.provided b here k needed
    have edge := (sound.edge_iff d b).2 ⟨hereToo, here, site, needed⟩
    have done := finished d (.single edge)
    obtain ⟨handed, asked⟩ := History.mem_asked_iff.1 done.asked
    have tasks : (((Log.endings before).filter (·.ticket.bear = d)).map (·.ticket.task)).Perm
        (d.tasks handed) := by
      have submitted := (run.invariant built).books.tasks d handed
      rw [← run.history_log] at submitted
      have mem := (Log.history_mono (split ▸ List.prefix_append ..)).subset asked
      rw [← submitted mem]
      exact (List.map_map ..).symm ▸ done.ended.map Ticket.task
    refine ⟨d, hereToo, handed, ⟨site, rfl, ?_⟩, asked, done, tasks, ?_⟩
    · exact fun d' here' site' kind => sound.unique d' here' d hereToo (site'.trans site.symm) kind
    · rw [sound.get?_received edge succeeded]
      have none : (Log.endings before).filter (·.ticket.bear = d) = [] ↔ d.tasks handed = [] := by
        rw [← List.length_eq_zero_iff, ← List.length_eq_zero_iff, ← tasks.length_eq,
          List.length_map]
      by_cases idle : d.tasks handed = []
      · rw [if_pos idle, if_pos (none.2 idle)]
      · rw [if_neg idle, if_neg (mt none.1 idle)]
        rfl
  · rw [graph]
    exact Roster.keys_received succeeded

theorem snapshot_complete_of_two : ∃ before deliveries after,
    Sample.log (.ok [3, 4]) = before ++ .event (.asked Sample.report deliveries) :: after ∧
      deliveries.byKind.keys = (((Log.endings before).filter fun e =>
        Sample.session.graph.Edge e.ticket.bear Sample.report).map
          (·.ticket.bear.kindId)).eraseDups := by
  have asked : Sample.report ∈ History.asked (Log.history (Sample.log (.ok [3, 4]))) := by
    decide +kernel
  obtain ⟨deliveries, mem⟩ := History.mem_asked_iff.1 asked
  obtain ⟨before, after, split⟩ := List.append_of_mem (Log.mem_history_iff.1 mem)
  exact ⟨before, deliveries, after, split,
    (snapshot_complete Sample.built (Sample.run (.ok [3, 4])) split).2.2⟩

end AnalysisScheduler
