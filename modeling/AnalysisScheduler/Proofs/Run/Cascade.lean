import AnalysisScheduler.Proofs.Run.CleanEnd

/-!
# What failures cost

A failed task takes the transitive dependants of its bear out of the run, and nobody else: at the
end of a run the asked bears are exactly those that depend on no failed bear, and there is one
notice for each failure (`asked_iff_not_withdrawn`).
-/

namespace AnalysisScheduler

variable {w : Workspace} {ρ σ : Type}

theorem Ending.isSome_failure? (e : Ending w ρ) : e.failure?.isSome = !e.outcome.isOk := by
  obtain ⟨t, outcome⟩ := e
  cases outcome <;> rfl

theorem Ending.length_failures (done : List (Ending w ρ)) :
    (done.filterMap Ending.failure?).length = done.countP fun e => !e.outcome.isOk := by
  rw [List.length_filterMap_eq_countP]
  exact List.countP_congr fun e _ => by rw [e.isSome_failure?]

/-- Whatever the order in which tasks end and whatever they end with, once nothing is in flight the
bears that were asked are those that depend on no failed bear, in the graph of the session as it was
built. No task of a dependant of a failed bear is ever submitted, and each failure is reported by
one notice. -/
theorem asked_iff_not_withdrawn {nextId : Nat} {supplied : List (Bear w)} {s : Session w ρ}
    {sink : Sink σ ρ} {taken : σ} {log : List (Moment w ρ)} {now : Session w ρ × σ}
    (built : (Session.start nextId supplied).2 = .ok s) (run : Session.Run sink s taken log now)
    (landed : now.1.inFlight = []) :
    (∀ b, b ∈ History.asked (Log.history log) ↔
        b ∈ s.roster.bears ∧ ¬ s.graph.Withdrawn (Log.endings log) b) ∧
      (∀ t ∈ History.submitted (Log.history log),
        ¬ s.graph.Withdrawn (Log.endings log) t.bear) ∧
      (History.failures (Log.history log)).length =
        (Log.endings log).countP fun e => !e.outcome.isOk := by
  obtain ⟨sound, graph⟩ := Session.sound_of_start built
  have inv := run.invariant built
  rw [run.history_log, inv.books.asked, graph, inv.books.failures, Ending.length_failures]
  refine ⟨fun b => ⟨fun asked => ?_, fun ⟨here, kept⟩ => ?_⟩, fun t submitted => ?_, rfl⟩
  · obtain ⟨here, kept, _⟩ := inv.standing.ready b (.inl asked)
    exact ⟨here, kept⟩
  · exact (inv.scheduled_or_withdrawn sound landed here).resolve_right kept
  · exact (inv.standing.ready t.bear (.inl (inv.books.owner t submitted))).2.1

theorem asked_iff_not_withdrawn_of_failed :
    (Sample.last (.error (.panicked "Lint"))).1.inFlight = [] ∧
      (∀ b, b ∈ History.asked (Log.history (Sample.log (.error (.panicked "Lint")))) ↔
        b ∈ Sample.session.roster.bears ∧ ¬ Sample.session.graph.Withdrawn
          (Log.endings (Sample.log (.error (.panicked "Lint")))) b) := by
  have landed : (Sample.last (.error (.panicked "Lint"))).1.inFlight = [] :=
    List.isEmpty_iff.1 (by decide +kernel)
  exact ⟨landed, (asked_iff_not_withdrawn Sample.built (Sample.run _) landed).1⟩

end AnalysisScheduler
