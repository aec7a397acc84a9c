import AnalysisScheduler.Proofs.Run.CleanEnd
import AnalysisScheduler.Proofs.Run.Termination
import Mathlib.Data.List.TakeWhile

/-!
# Courses are runs

What an executor does with a session is one of its runs: the queue of a course always holds the
tasks in flight, each once, so every task that ends was in flight (`Course.exists_run_drive`). A
course goes on until nothing is in flight. So whatever holds of all complete runs holds of the
report of a run; in particular, it has no warning (`level_of_run`).
-/

namespace AnalysisScheduler

variable {w : Workspace} {ρ σ : Type}

/-! ## The queue -/

namespace Course

variable {sink : Sink σ ρ} {s : Session w ρ} {taken : σ} {log : List (Moment w ρ)}
  {nextId : Nat} {supplied : List (Bear w)}

theorem map_ticket_newcomers (patience : Nat → Nat) (s : Session w ρ) (count : Nat) :
    (newcomers patience s count).map Pending.ticket = s.inFlight.drop count := by
  unfold newcomers
  rw [List.map_map]
  exact List.map_id _

/-- Somebody in a queue has the fewest rounds left. -/
theorem eq_nil_of_dropWhile_fewest {queue : List (Pending w ρ)}
    (none : queue.dropWhile (Pending.fewest queue < ·.rounds) = []) : queue = [] := by
  cases least : (queue.map Pending.rounds).min? with
  | none => exact List.map_eq_nil_iff.1 (List.min?_eq_none_iff.1 least)
  | some m =>
    obtain ⟨p, mem, rounds⟩ := List.mem_map.1 (List.min?_mem least)
    have more := List.dropWhile_eq_nil_iff.1 none p mem
    rw [Pending.fewest, least, rounds] at more
    exact absurd (of_decide_eq_true more) (Nat.lt_irrefl m)

/-- A task at any place of the queue is in flight, and the others in the queue are the others in
flight. -/
theorem perm_others {queue front back : List (Pending w ρ)} {p : Pending w ρ}
    (nodup : (s.inFlight.map Ticket.id).Nodup)
    (queued : (queue.map Pending.ticket).Perm s.inFlight) (split : front ++ p :: back = queue) :
    p.ticket ∈ s.inFlight ∧
      ((back ++ front).map Pending.ticket).Perm (s.others p.ticket) := by
  have turned : (queue.map Pending.ticket).Perm
      (p.ticket :: (back ++ front).map Pending.ticket) := by
    rw [← split]
    exact List.perm_append_comm.map _
  have flying : p.ticket ∈ s.inFlight :=
    (turned.symm.trans queued).mem_iff.1 List.mem_cons_self
  refine ⟨flying, List.Perm.cons_inv (a := p.ticket) ?_⟩
  exact (turned.symm.trans queued).trans (Ticket.perm_cons_filter nodup flying)

theorem map_ticket_wait (turns : Nat) (queue : List (Pending w ρ)) :
    (queue.map (Pending.wait turns)).map Pending.ticket = queue.map Pending.ticket := by
  rw [List.map_map]
  rfl

/-- A course goes on to its end along a run, in which nothing is in flight any more. -/
theorem exists_run_drive (built : (Session.start nextId supplied).2 = .ok s)
    (patience : Nat → Nat) (perform : Ticket w ρ → Outcome ρ) (c : Course w ρ σ) :
    ∀ log, Session.Run sink s taken log (c.session, c.taken) →
      (c.queue.map Pending.ticket).Perm c.session.inFlight →
      ∃ log', Session.Run sink s taken log'
          ((drive patience perform sink c).session, (drive patience perform sink c).taken) ∧
        (drive patience perform sink c).session.inFlight = [] := by
  fun_induction drive patience perform sink c with
  | case1 c turns none =>
    intro log run queued
    have empty : c.queue = [] := eq_nil_of_dropWhile_fewest none
    rw [empty] at queued
    exact ⟨log, run, queued.symm.eq_nil⟩
  | case2 c turns p back found front next ih =>
    intro log run queued
    have split : front ++ p :: back = c.queue := found ▸ List.takeWhile_append_dropWhile
    obtain ⟨flying, others⟩ :=
      perm_others (run.invariant built).books.nodup_inFlight queued split
    refine ih _ (.ended run flying (perform p.ticket)) ?_
    obtain ⟨new, grown, _⟩ :=
      Session.exists_submits_complete sink (c.session, c.taken) p.ticket (perform p.ticket)
    -- Those with a turn before `p` go behind the others, and what is new comes after them all.
    show ((back.map (Pending.wait turns) ++ front.map (Pending.wait (turns + 1)) ++
      newcomers patience next.1 (c.session.others p.ticket).length).map Pending.ticket).Perm
        next.1.inFlight
    rw [List.map_append, List.map_append, map_ticket_wait, map_ticket_wait, map_ticket_newcomers,
      grown, List.drop_left, ← List.map_append]
    exact others.append_right new

end Course

/-! ## Reports -/

/-- The report of a run is that of a run in which nothing is in flight any more. -/
theorem Session.exists_run_of_report (env : Environment w ρ σ) {nextId : Nat}
    {supplied : List (Bear w)} {s : Session w ρ} (taken : σ)
    (built : (Session.start nextId supplied).2 = .ok s) :
    ∃ log now, Session.Run env.sink s taken log now ∧ now.1.inFlight = [] ∧
      (s.run env taken).history = now.1.close.history ∧ (s.run env taken).taken = now.2 := by
  have queued : ((Course.ofSession env.patience s.launch taken).queue.map Pending.ticket).Perm
      s.launch.inFlight := by
    rw [Course.ofSession, Course.map_ticket_newcomers]
    exact .refl _
  obtain ⟨log, run, landed⟩ := Course.exists_run_drive built env.patience env.perform
    (.ofSession env.patience s.launch taken) _ .launched queued
  exact ⟨log, _, run, landed, rfl, rfl⟩

/-- No run has anything to warn of. -/
theorem level_of_run (env : Environment w ρ σ) (nextId : Nat) (supplied : List (Bear w))
    (taken : σ) :
    ∀ n ∈ History.notices (run env nextId supplied taken).history, n.level ≠ .warn := by
  intro n mem
  rw [History.mem_notices_iff] at mem
  unfold run at mem
  split at mem
  · exact absurd mem List.not_mem_nil
  · split at mem
    · rename_i said error refused
      have early : .noticed n ∈ (Session.start (ρ := ρ) nextId supplied).1 := by
        rw [refused]
        exact mem
      obtain ⟨_, same, debug⟩ := Session.level_of_start early
      cases same
      rw [debug]
      exact Level.noConfusion
    · rename_i said s built
      obtain ⟨log, now, run, landed, history, _⟩ :=
        Session.exists_run_of_report env taken (congrArg Prod.snd built)
      obtain ⟨sound, _⟩ := Session.sound_of_start (congrArg Prod.snd built)
      refine (run.invariant (congrArg Prod.snd built)).calm_close sound landed n ?_
      rw [History.mem_notices_iff, ← history]
      exact mem

end AnalysisScheduler
