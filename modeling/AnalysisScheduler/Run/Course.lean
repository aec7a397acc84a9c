import AnalysisScheduler.Run.Executor
import AnalysisScheduler.Run.Sink

/-!
# The course of a run

A run from its launch to the end, with an executor that runs each task when it is submitted. Tasks
end in the order in which they were submitted, except that a submission may have to let others pass
first: when it reaches the front of the queue and has rounds left, it goes to the back with one
round less.

`drive` leaps from one end of a task to the next. As long as everybody has a round left nobody ends
and the queue only turns, so the next to end is the first of those with the fewest rounds. The ones
in front of it have gone to the back once more than the ones behind it.

The course ends: a task that ends leaves the tasks in flight, and new ones come only when edges have
left the graph (`inFlight_finish`).
-/

namespace AnalysisScheduler

namespace Session

variable {w : Workspace} {ρ σ : Type}

theorem size_settle_le (s : Session w ρ) (done : List (Bear w)) :
    (s.settle done).graph.size ≤ s.graph.size := by
  fun_induction settle s done with
  | case1 => exact Nat.le_refl _
  | case2 s b rest busy ih => exact ih
  | case3 s b rest busy freed s' none ih =>
    have less := s.graph.size_resolve_add_le b
    change _ ≤ (s.graph.resolve b).size at ih
    omega
  | case4 s b rest busy freed s' some next ih =>
    have less := s.graph.size_resolve_add_le b
    have same : next.1.graph = s.graph.resolve b :=
      (s'.note (.released b freed.length)).graph_askAll freed
    rw [same] at ih
    omega

/-- New tasks come only with edges that go. -/
theorem inFlight_settle (s : Session w ρ) (done : List (Bear w)) :
    (s.settle done).graph.size < s.graph.size ∨ (s.settle done).inFlight = s.inFlight := by
  fun_induction settle s done with
  | case1 => exact .inr rfl
  | case2 s b rest busy ih => exact ih
  | case3 s b rest busy freed s' none ih =>
    have less := s.graph.size_resolve_add_le b
    rcases ih with ih | ih
    · change _ < (s.graph.resolve b).size at ih
      exact .inl (by omega)
    · exact .inr ih
  | case4 s b rest busy freed s' some next ih =>
    have less := s.graph.size_resolve_add_le b
    have same : next.1.graph = s.graph.resolve b :=
      (s'.note (.released b freed.length)).graph_askAll freed
    have least := next.1.size_settle_le (next.2 ++ rest)
    rw [same] at least
    have pos : 0 < freed.length := List.length_pos_iff.2 some
    change 0 < (s.graph.freedBy b).length at pos
    exact .inl (by omega)

theorem size_withdrawDependants_le (s : Session w ρ) (failed : Bear w) :
    (s.withdrawDependants failed).graph.size ≤ s.graph.size := by
  unfold withdrawDependants
  split
  · exact Nat.le_refl _
  · rename_i dependants found
    clear found
    induction dependants generalizing s with
    | nil => exact Nat.le_refl _
    | cons b rest ih =>
      have less := s.graph.size_resolve_add_le b
      have := ih (withdraw failed s b)
      rw [List.foldl_cons]
      change _ ≤ (s.graph.resolve b).size at this
      omega

theorem inFlight_withdrawDependants (s : Session w ρ) (failed : Bear w) :
    (s.withdrawDependants failed).inFlight = s.inFlight := by
  unfold withdrawDependants
  split
  · rfl
  · rename_i dependants found
    clear found
    induction dependants generalizing s with
    | nil => rfl
    | cons b rest ih => exact ih (withdraw failed s b)

theorem size_absorb_le (s : Session w ρ) (t : Ticket w ρ) (outcome : Outcome ρ) :
    (s.absorb t outcome).graph.size ≤ s.graph.size := by
  cases outcome with
  | ok results => exact Nat.le_refl _
  | error failure => exact size_withdrawDependants_le (s.note _) t.bear

theorem inFlight_absorb (s : Session w ρ) (t : Ticket w ρ) (outcome : Outcome ρ) :
    (s.absorb t outcome).inFlight = s.inFlight := by
  cases outcome with
  | ok results => rfl
  | error failure => exact inFlight_withdrawDependants (s.note _) t.bear

/-- A task that ends takes itself out of flight, and adds others only where edges go. -/
theorem inFlight_finish (s : Session w ρ) (t : Ticket w ρ) (outcome : Outcome ρ) :
    (s.finish t outcome).graph.size < s.graph.size ∨
      ((s.finish t outcome).graph.size ≤ s.graph.size ∧
        (s.finish t outcome).inFlight = s.others t) := by
  have le := s.size_absorb_le t outcome
  have le' := size_settle_le ((s.absorb t outcome).retire t) [t.bear]
  rcases inFlight_settle ((s.absorb t outcome).retire t) [t.bear] with h | h
  · exact .inl (Nat.lt_of_lt_of_le h le)
  · refine .inr ⟨Nat.le_trans le' le, ?_⟩
    unfold finish
    rw [h]
    change (s.absorb t outcome).others t = _
    unfold others
    rw [inFlight_absorb]

theorem offers_keep (sink : Sink σ ρ) (results : List ρ) (state : Session w ρ × σ) :
    (results.foldl (offer sink) state).1.graph = state.1.graph ∧
      (results.foldl (offer sink) state).1.inFlight = state.1.inFlight := by
  induction results generalizing state with
  | nil => exact ⟨rfl, rfl⟩
  | cons r rest ih =>
    rw [List.foldl_cons]
    have one : (offer sink state r).1.graph = state.1.graph ∧
        (offer sink state r).1.inFlight = state.1.inFlight := by
      unfold offer
      dsimp only
      cases (sink.receive state.2 r).2 <;> exact ⟨rfl, rfl⟩
    exact ⟨(ih _).1.trans one.1, (ih _).2.trans one.2⟩

/-- What is offered to the sink changes neither the graph nor the tasks in flight. -/
theorem complete_keeps (sink : Sink σ ρ) (state : Session w ρ × σ) (t : Ticket w ρ)
    (outcome : Outcome ρ) :
    (complete sink state t outcome).1.graph = (state.1.finish t outcome).graph ∧
      (complete sink state t outcome).1.inFlight = (state.1.finish t outcome).inFlight :=
  offers_keep sink _ (state.1.finish t outcome, state.2)

end Session

/-- A task in flight and the rounds that it still lets others pass. -/
structure Pending (w : Workspace) (ρ : Type) where
  ticket : Ticket w ρ
  rounds : Nat

namespace Pending

variable {w : Workspace} {ρ : Type}

/-- A task that has gone to the back of the queue a number of times. -/
def wait (turns : Nat) (p : Pending w ρ) : Pending w ρ := { p with rounds := p.rounds - turns }

/-- The fewest rounds in a queue. -/
def fewest (queue : List (Pending w ρ)) : Nat := ((queue.map rounds).min?).getD 0

end Pending

/-- A run on its way. -/
structure Course (w : Workspace) (ρ σ : Type) where
  session : Session w ρ
  /-- What has become of the sink. -/
  taken : σ
  /-- The tasks in flight, from the front to the back. -/
  queue : List (Pending w ρ)

namespace Course

variable {w : Workspace} {ρ σ : Type}

/-- The tasks in flight after the first `count`, each with its `patience`. -/
def newcomers (patience : Nat → Nat) (s : Session w ρ) (count : Nat) : List (Pending w ρ) :=
  (s.inFlight.drop count).map fun t => ⟨t, patience t.id⟩

/-- The course of a session of which no task has ended; a submission lets others pass for as many
rounds as `patience` gives it. -/
def ofSession (patience : Nat → Nat) (s : Session w ρ) (taken : σ) : Course w ρ σ :=
  ⟨s, taken, newcomers patience s 0⟩

/-- Lets tasks end until none is in flight; `perform` says what a task ends with. -/
def drive (patience : Nat → Nat) (perform : Ticket w ρ → Outcome ρ) (sink : Sink σ ρ)
    (c : Course w ρ σ) : Course w ρ σ :=
  let turns := Pending.fewest c.queue
  match _h : c.queue.dropWhile (turns < ·.rounds) with
  | [] => c
  | p :: back =>
    let front := c.queue.takeWhile (turns < ·.rounds)
    let next := Session.complete sink (c.session, c.taken) p.ticket (perform p.ticket)
    drive patience perform sink
      { session := next.1
        taken := next.2
        queue := back.map (.wait turns) ++ front.map (.wait (turns + 1)) ++
          newcomers patience next.1 (c.session.others p.ticket).length }
termination_by (c.session.graph.size, c.queue.length)
decreasing_by
  have kept := Session.complete_keeps sink (c.session, c.taken) p.ticket (perform p.ticket)
  rcases c.session.inFlight_finish p.ticket (perform p.ticket) with less | ⟨le, same⟩
  · apply Prod.Lex.left
    change next.1.graph.size < _
    rw [kept.1]
    exact less
  · have none_new : newcomers patience next.1 (c.session.others p.ticket).length = [] := by
      unfold newcomers
      rw [kept.2, same, List.drop_length]
      rfl
    have shorter : (back.map (Pending.wait turns) ++ front.map (Pending.wait (turns + 1)) ++
        newcomers patience next.1 (c.session.others p.ticket).length).length < c.queue.length := by
      rw [none_new, ← List.takeWhile_append_dropWhile (p := (turns < ·.rounds)) (l := c.queue), _h]
      simp only [List.append_nil, List.length_append, List.length_map, List.length_cons]
      change back.length + front.length < front.length + (back.length + 1)
      omega
    change Prod.Lex _ _ (next.1.graph.size, _) _
    rw [kept.1]
    rcases Nat.lt_or_eq_of_le le with lt | eq
    · exact .left _ _ lt
    · rw [eq]
      exact .right _ shorter

end Course

end AnalysisScheduler
