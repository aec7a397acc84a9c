import AnalysisScheduler.Proofs.Run.Readiness

/-!
# The parts of a session agree

A session keeps its state in several parts: what is running, what is in flight, who was scheduled,
who still waits on whom, what is held for whom. Between the ends of tasks they all tell the same
about the run so far (`Session.Agrees`, `parts_agree`): each part is what the log says that it has
to be, and none has an entry too many.
-/

namespace AnalysisScheduler

variable {w : Workspace} {ρ σ : Type}

namespace Log

/-- A bear was asked, and all the tasks that it has submitted have ended, with whatever outcome. -/
def HasCompleted (log : List (Moment w ρ)) (b : Bear w) : Prop :=
  b ∈ History.asked (history log) ∧
    ∀ t ∈ History.submitted (history log), t.bear = b → ∃ e ∈ endings log, e.ticket = t

end Log

namespace Session

/-- The parts of a session agree with each other, with the graph that it was built with and with the
log of the run so far. -/
structure Agrees (g : WaitGraph (Bear w)) (log : List (Moment w ρ)) (s : Session w ρ) :
    Prop where
  /-- The bears that are noted as running are those with a task in flight. -/
  running : ∀ b, b ∈ s.running.keys ↔ ∃ t ∈ s.inFlight, t.bear = b
  /-- What is noted for a running bear are the numbers of its tasks in flight. -/
  numbers : ∀ b ids, s.running.get? b = some ids →
    ids ≠ [] ∧ ids.Nodup ∧ ∀ id, id ∈ ids ↔ ∃ t ∈ s.inFlight, t.bear = b ∧ t.id = id
  /-- No number was given to two tasks. -/
  distinct : ((History.submitted (Log.history log)).map Ticket.id).Nodup
  below : ∀ t ∈ History.submitted (Log.history log), t.id < s.nextTicket
  scheduled : ∀ b ∈ s.running.keys, b ∈ s.scheduled
  /-- An edge stays until its dependency has completed or one of its ends was withdrawn. -/
  edges : ∀ u v, s.graph.Edge u v ↔ g.Edge u v ∧ ¬ Log.HasCompleted log u ∧
    ¬ g.Withdrawn (Log.endings log) u ∧ ¬ g.Withdrawn (Log.endings log) v
  /-- Something is held only for bears that were not asked yet and still wait. -/
  buffers : ∀ b ∈ s.buffers.keys, b ∉ s.scheduled ∧ ∃ u, s.graph.Edge u b

namespace Ledger

variable {done : List (Ending w ρ)} {s : Session w ρ}

theorem id_lt (books : Ledger done [] s) {t : Ticket w ρ}
    (submitted : t ∈ History.submitted s.history) : t.id < s.nextTicket := by
  rw [← List.mem_range, ← books.ids]
  exact List.mem_map_of_mem submitted

theorem get?_running (books : Ledger done [] s) {b : Bear w} {ids : List Nat}
    (noted : s.running.get? b = some ids) :
    ids ≠ [] ∧ ids = (s.inFlight.filter (·.bear = b)).map Ticket.id := by
  refine ⟨fun none => ?_, ?_⟩
  · rw [none] at noted
    exact absurd (books.tidy b noted) List.not_mem_nil
  · rw [← books.running b, noted, Option.getD_some]

theorem mem_keys_running (books : Ledger done [] s) {b : Bear w} :
    b ∈ s.running.keys ↔ ∃ t ∈ s.inFlight, t.bear = b := by
  rw [OrderedMap.mem_keys_iff]
  constructor
  · rintro ⟨ids, noted⟩
    obtain ⟨some, same⟩ := books.get?_running noted
    rw [same, ne_eq, List.map_eq_nil_iff, List.filter_eq_nil_iff] at some
    by_contra none
    exact some fun t flying mine => none ⟨t, flying, of_decide_eq_true mine⟩
  · rintro ⟨t, flying, rfl⟩
    exact ⟨_, books.running_of_mem flying⟩

/-- The numbers that are noted for a bear are those of its tasks in flight. -/
theorem numbers_running (books : Ledger done [] s) {b : Bear w} {ids : List Nat}
    (noted : s.running.get? b = some ids) :
    ids ≠ [] ∧ ids.Nodup ∧ ∀ id, id ∈ ids ↔ ∃ t ∈ s.inFlight, t.bear = b ∧ t.id = id := by
  obtain ⟨some, same⟩ := books.get?_running noted
  refine ⟨some, ?_, fun id => ?_⟩
  · rw [same]
    exact (List.filter_sublist.map _).nodup books.nodup_inFlight
  · rw [same, List.mem_map]
    simp only [List.mem_filter, decide_eq_true_eq, and_assoc]

/-- A bear is over when it has completed. -/
theorem isOver_iff {log : List (Moment w ρ)} (books : Ledger (Log.endings log) [] s)
    (told : Log.history log = s.history) {b : Bear w} :
    s.IsOver [] b ↔ Log.HasCompleted log b := by
  unfold IsOver Log.HasCompleted
  rw [told, books.asked]
  refine and_congr_right fun _ => ?_
  rw [and_iff_left List.not_mem_nil]
  constructor
  · intro landed t submitted mine
    rcases List.mem_append.1 (books.submitted.mem_iff.1 submitted) with ended | flying
    · exact List.mem_map.1 ended
    · exact absurd mine (landed t flying)
  · rintro ended t flying mine
    obtain ⟨e, mem, rfl⟩ := ended t (books.mem_submitted flying) mine
    exact books.not_mem_inFlight mem flying

end Ledger

namespace Standing

variable {r : Roster w} {done : List (Ending w ρ)} {s : Session w ρ}

/-- The edges that are left: nobody on them was withdrawn, and their dependencies are not over. -/
theorem edge_iff (standing : Standing r done [] [] s) {u v : Bear w} :
    s.graph.Edge u v ↔ r.graph.Edge u v ∧ ¬ s.IsOver [] u ∧ ¬ r.graph.Withdrawn done u ∧
      ¬ r.graph.Withdrawn done v := by
  rw [standing.edges]
  refine and_congr_right fun edge => and_congr_right fun _ => (and_iff_right_of_imp ?_).symm
  exact fun kept out => kept (out.edge edge)

end Standing

/-- A bear for which something is held waits on somebody. -/
theorem Invariant.waits_of_held {r : Roster w} {done : List (Ending w ρ)} {s : Session w ρ}
    (inv : Invariant r done [] [] s) {b : Bear w} (held : b ∈ s.buffers.keys) :
    b ∉ s.scheduled ∧ ∃ u, s.graph.Edge u b := by
  obtain ⟨here, notAsked, kept⟩ := inv.stock.kept b held
  exact ⟨notAsked, inv.standing.waiting b here notAsked List.not_mem_nil kept⟩

end Session

/-- Whatever tasks end in whatever order and with whatever outcomes, between two of them the parts
of a session agree. -/
theorem parts_agree {nextId : Nat} {supplied : List (Bear w)} {s : Session w ρ}
    {sink : Sink σ ρ} {taken : σ} {log : List (Moment w ρ)} {now : Session w ρ × σ}
    (built : (Session.start nextId supplied).2 = .ok s)
    (run : Session.Run sink s taken log now) : Session.Agrees s.graph log now.1 := by
  obtain ⟨-, graph⟩ := Session.sound_of_start built
  have inv := run.invariant built
  have told := run.history_log
  refine { running := fun _ => inv.books.mem_keys_running
           numbers := fun _ _ noted => inv.books.numbers_running noted
           distinct := ?_, below := ?_, scheduled := fun b mem => ?_, edges := fun u v => ?_
           buffers := fun _ held => inv.waits_of_held held }
  · rw [told]
    exact inv.books.nodup_submitted
  · rw [told]
    exact fun _ => inv.books.id_lt
  · obtain ⟨t, flying, rfl⟩ := inv.books.mem_keys_running.1 mem
    exact inv.books.owner t (inv.books.mem_submitted flying)
  · rw [inv.standing.edge_iff, inv.books.isOver_iff told, graph]

/-- The first bear has completed, and the tasks of the second one are in flight. -/
theorem parts_agree_of_two : Sample.report ∈ (Sample.last (.ok [3, 4])).1.running.keys ∧
    (∃ t ∈ (Sample.last (.ok [3, 4])).1.inFlight, t.bear = Sample.report) ∧
    Session.Agrees Sample.session.graph (Sample.log (.ok [3, 4])) (Sample.last (.ok [3, 4])).1 := by
  have agrees := parts_agree Sample.built (Sample.run (.ok [3, 4]))
  have noted : Sample.report ∈ (Sample.last (.ok [3, 4])).1.running.keys := by decide +kernel
  exact ⟨noted, (agrees.running _).1 noted, agrees⟩

end AnalysisScheduler
