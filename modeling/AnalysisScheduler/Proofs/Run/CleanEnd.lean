import AnalysisScheduler.Proofs.Run.Readiness

/-!
# How runs end

When nothing is in flight, nothing is left: nobody waits, nothing is running, nothing is held back
for anybody, and each bear was asked or was withdrawn (`clean_end`). So no run is ever stranded.

The dependencies of a roster are founded, so a bear that is neither asked nor withdrawn would have a
first one of its kind among those it depends on, which has nobody to wait on.
-/

namespace AnalysisScheduler

variable {w : Workspace} {ρ σ : Type}

namespace Session.Invariant

variable {r : Roster w} {done : List (Ending w ρ)} {s : Session w ρ}

/-- Without tasks in flight, every asked bear is over. -/
theorem isOver_of_scheduled (landed : s.inFlight = []) {b : Bear w} (asked : b ∈ s.scheduled) :
    s.IsOver [] b := by
  refine ⟨asked, fun t flying => ?_, List.not_mem_nil⟩
  rw [landed] at flying
  exact absurd flying List.not_mem_nil

theorem scheduled_or_withdrawn (sound : r.Sound) (inv : Invariant r done [] [] s)
    (landed : s.inFlight = []) {b : Bear w} (here : b ∈ r.bears) :
    b ∈ s.scheduled ∨ r.graph.Withdrawn done b := by
  induction b using sound.founded.induction with
  | _ b ih =>
    by_contra neither
    rw [not_or] at neither
    obtain ⟨u, waits⟩ := inv.standing.waiting b here neither.1 List.not_mem_nil neither.2
    obtain ⟨edge, unfinished, _⟩ := (inv.standing.edges u b).1 waits
    rcases ih u edge ((sound.edge_iff u b).1 edge).1 with asked | out
    · exact unfinished (isOver_of_scheduled landed asked)
    · exact neither.2 (out.edge edge)

theorem graph_eq_empty (sound : r.Sound) (inv : Invariant r done [] [] s)
    (landed : s.inFlight = []) : s.graph = .empty := by
  refine WaitGraph.eq_empty fun u v waits => ?_
  obtain ⟨edge, unfinished, kept⟩ := (inv.standing.edges u v).1 waits
  rcases inv.scheduled_or_withdrawn sound landed ((sound.edge_iff u v).1 edge).1 with asked | out
  · exact unfinished (isOver_of_scheduled landed asked)
  · exact kept (out.edge edge)

theorem running_eq_empty (inv : Invariant r done [] [] s) (landed : s.inFlight = []) :
    s.running = .empty := by
  refine OrderedMap.eq_empty fun b mem => ?_
  obtain ⟨ids, found⟩ := OrderedMap.mem_keys_iff.1 mem
  have none := inv.books.running b
  rw [found, landed] at none
  exact absurd (inv.books.tidy b (found.trans (congrArg some none))) List.not_mem_nil

theorem buffers_eq_empty (sound : r.Sound) (inv : Invariant r done [] [] s)
    (landed : s.inFlight = []) : s.buffers = .empty := by
  refine OrderedMap.eq_empty fun b mem => ?_
  obtain ⟨here, notAsked, kept⟩ := inv.stock.kept b mem
  exact (inv.scheduled_or_withdrawn sound landed here).elim notAsked kept

theorem history_close (sound : r.Sound) (inv : Invariant r done [] [] s)
    (landed : s.inFlight = []) :
    s.close.history = s.history ++ [.noticed (.finished s.scheduled.length)] := by
  have resolved : s.graph.isResolved = true := by
    rw [inv.graph_eq_empty sound landed]
    rfl
  unfold Session.close
  rw [if_pos resolved]
  rfl

theorem calm_close (sound : r.Sound) (inv : Invariant r done [] [] s) (landed : s.inFlight = []) :
    ∀ n ∈ History.notices s.close.history, n.level ≠ .warn := by
  intro n mem
  rw [inv.history_close sound landed, History.notices_append, List.mem_append] at mem
  rcases mem with mem | mem
  · exact inv.books.calm n mem
  · rw [List.mem_singleton.1 mem]
    exact Level.noConfusion

end Session.Invariant

/-! ## The end of a run -/

/-- A run in which nothing is in flight has nothing left to do, and says so when it is closed. -/
theorem clean_end {nextId : Nat} {supplied : List (Bear w)} {s : Session w ρ} {sink : Sink σ ρ}
    {taken : σ} {log : List (Moment w ρ)} {now : Session w ρ × σ}
    (built : (Session.start nextId supplied).2 = .ok s) (run : Session.Run sink s taken log now)
    (landed : now.1.inFlight = []) :
    now.1.graph = .empty ∧ now.1.running = .empty ∧ now.1.buffers = .empty ∧
      (∀ b ∈ s.roster.bears, b ∈ now.1.scheduled ∨ s.graph.Withdrawn (Log.endings log) b) ∧
      now.1.close.history = now.1.history ++ [.noticed (.finished now.1.scheduled.length)] ∧
      ∀ n ∈ History.notices now.1.close.history, n.level ≠ .warn := by
  obtain ⟨sound, graph⟩ := Session.sound_of_start built
  have inv := run.invariant built
  refine ⟨inv.graph_eq_empty sound landed, inv.running_eq_empty landed,
    inv.buffers_eq_empty sound landed, fun b here => ?_, inv.history_close sound landed,
    inv.calm_close sound landed⟩
  rw [graph]
  exact inv.scheduled_or_withdrawn sound landed here

/-- The second bear has no tasks when the first one brings no results. -/
theorem clean_end_without_tasks :
    (Sample.last (.ok [])).1.inFlight = [] ∧ (Sample.last (.ok [])).1.graph = .empty ∧
      (Sample.last (.ok [])).1.running = .empty ∧ (Sample.last (.ok [])).1.buffers = .empty ∧
      ∀ b ∈ Sample.session.roster.bears, b ∈ (Sample.last (.ok [])).1.scheduled ∨
        Sample.session.graph.Withdrawn (Log.endings (Sample.log (.ok []))) b := by
  have landed : (Sample.last (.ok [])).1.inFlight = [] :=
    List.isEmpty_iff.1 (by decide +kernel)
  obtain ⟨graph, running, buffers, bears, _⟩ :=
    clean_end Sample.built (Sample.run (.ok [])) landed
  exact ⟨landed, graph, running, buffers, bears⟩

end AnalysisScheduler
