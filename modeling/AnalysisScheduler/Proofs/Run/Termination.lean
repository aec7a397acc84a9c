import AnalysisScheduler.Proofs.Run.Deeds
import AnalysisScheduler.Proofs.Run.Invariant
import Mathlib.Order.OrderIsoNat

/-!
# Runs come to an end

Scheduling a bear without tasks cleans it up at once, which schedules the bears that this frees. In
every state this recursion (`Session.Schedules`, `Session.CleansUp`) ends. The bears to begin with
and the edges of the graph bound the number of clean-ups (`Session.CleansUp.calls_add_size_le`), and
what the recursion ends with is what `Session.schedule` and `Session.settle` compute.

When a task ends, it leaves the tasks in flight for good. New tasks can come, as many as there may
be, but only when edges leave the graph. So there is no infinite sequence of tasks that end
(`Session.wellFounded_ends`), and at the end of a run all tasks that were submitted have ended
(`run_terminates`).
-/

namespace AnalysisScheduler

variable {w : Workspace} {ρ σ : Type}

theorem History.submitted_noticed (ns : List (Notice w)) :
    submitted (ns.map .noticed : List (Event w ρ)) = [] := by
  induction ns with
  | nil => rfl
  | cons _ _ ih => exact ih

theorem Sink.submitted_transcript (sink : Sink σ ρ) (taken : σ) (results : List ρ) :
    History.submitted (sink.transcript taken results : List (Event w ρ)) = [] :=
  (sink.filterMap_transcript (fun _ _ => rfl) taken results).trans
    (List.filterMap_eq_nil_iff.2 fun _ _ => rfl)

namespace Session

/-! ## The recursion -/

/-- `CleansUp s bs calls s'`: cleaning up the bears of `bs` one after another takes `s` to `s'`,
with `calls` clean-ups in all. A bear with unfinished tasks is passed over. Any other is released,
the bears that this frees are asked for their tasks, and those without tasks are cleaned up before
the rest of `bs`. -/
inductive CleansUp : Session w ρ → List (Bear w) → Nat → Session w ρ → Prop
  | nil (s : Session w ρ) : CleansUp s [] 0 s
  | busy {s s' : Session w ρ} {b : Bear w} {rest : List (Bear w)} {calls : Nat} :
      s.isBusy b = true → CleansUp s rest calls s' → CleansUp s (b :: rest) (calls + 1) s'
  | idle {s mid s' : Session w ρ} {b : Bear w} {rest : List (Bear w)} {inner outer : Nat} :
      s.isBusy b = false →
      CleansUp ((s.release b).askAll (s.graph.freedBy b)).1
        ((s.release b).askAll (s.graph.freedBy b)).2 inner mid →
      CleansUp mid rest outer s' → CleansUp s (b :: rest) (inner + outer + 1) s'

/-- Scheduling bears asks them for their tasks one after another and then cleans up those without
any. -/
def Schedules (s : Session w ρ) (bs : List (Bear w)) (calls : Nat) (s' : Session w ρ) : Prop :=
  CleansUp (s.askAll bs).1 (s.askAll bs).2 calls s'

/-- Those who are still to be resolved can be resolved in two parts. -/
theorem settle_append (s : Session w ρ) (bs more : List (Bear w)) :
    s.settle (bs ++ more) = (s.settle bs).settle more := by
  refine settle_induction (P := fun s' rest => s.settle (bs ++ more) = s'.settle (rest ++ more))
    ?_ ?_ rfl
  · intro s' b rest busy eq
    rwa [List.cons_append, settle_of_busy busy] at eq
  · intro s' b rest idle eq
    rwa [List.cons_append, settle_of_idle idle, ← List.append_assoc] at eq

namespace CleansUp

variable {s s' : Session w ρ} {bs : List (Bear w)} {calls : Nat}

theorem eq_settle (cleans : CleansUp s bs calls s') : s' = s.settle bs := by
  induction cleans with
  | nil s => exact s.settle_nil.symm
  | busy busy _ ih => rw [settle_of_busy busy, ih]
  | idle idle _ _ first rest => rw [settle_of_idle idle, settle_append, ← first, rest]

/-- What is cleaned up in a row can be cleaned up in two parts. -/
theorem exists_of_append {more : List (Bear w)} (cleans : CleansUp s (bs ++ more) calls s') :
    ∃ inner outer mid, CleansUp s bs inner mid ∧ CleansUp mid more outer s' := by
  induction bs generalizing s calls with
  | nil => exact ⟨0, calls, s, .nil s, cleans⟩
  | cons b bs ih =>
    cases cleans with
    | busy busy rest =>
      obtain ⟨inner, outer, mid, first, last⟩ := ih rest
      exact ⟨inner + 1, outer, mid, .busy busy first, last⟩
    | idle idle freed rest =>
      obtain ⟨inner, outer, mid, first, last⟩ := ih rest
      exact ⟨_, outer, mid, .idle idle freed first, last⟩

/-- A bear is cleaned up with those that it frees before the rest. -/
theorem of_append {b : Bear w} {rest : List (Bear w)} {asked : Session w ρ × List (Bear w)}
    (idle : ¬ s.isBusy b = true) (eq : (s.release b).askAll (s.graph.freedBy b) = asked)
    (cleans : CleansUp asked.1 (asked.2 ++ rest) calls s') :
    ∃ calls' s'', CleansUp s (b :: rest) calls' s'' := by
  subst eq
  obtain ⟨inner, outer, mid, first, last⟩ := cleans.exists_of_append
  exact ⟨_, _, .idle (Bool.eq_false_iff.2 idle) first last⟩

/-- Each clean-up is paid for by a bear of the list or by an edge that leaves the graph. -/
theorem calls_add_size_le (cleans : CleansUp s bs calls s') :
    calls + s'.graph.size ≤ s.graph.size + bs.length := by
  induction cleans with
  | nil s => simp
  | busy _ _ ih =>
    rw [List.length_cons]
    omega
  | @idle s mid s' b rest inner outer _ _ _ first last =>
    have graph : (s.release b).graph = s.graph.resolve b := by
      obtain ⟨_, _, released⟩ := release_eq s b
      rw [released]
    have less := s.graph.size_resolve_add_le b
    have few := (s.release b).length_askAll_le (s.graph.freedBy b)
    rw [graph_askAll, graph] at first
    rw [List.length_cons]
    omega

end CleansUp

/-- The recursion ends from every state. -/
theorem exists_cleansUp (s : Session w ρ) (bs : List (Bear w)) :
    ∃ calls ≤ s.graph.size + bs.length, CleansUp s bs calls (s.settle bs) := by
  have ends : ∃ calls s', CleansUp s bs calls s' := by
    fun_induction settle s bs with
    | case1 s => exact ⟨0, s, .nil s⟩
    | case2 s b rest busy ih =>
      obtain ⟨calls, s', cleans⟩ := ih
      exact ⟨calls + 1, s', .busy busy cleans⟩
    | case3 s b rest idle freed released none ih =>
      obtain ⟨calls, s', cleans⟩ := ih
      have nobody : s.graph.freedBy b = [] := none
      have eq : (s.release b).askAll (s.graph.freedBy b) = (released, []) := by
        rw [release, if_pos nobody, nobody]
        rfl
      exact CleansUp.of_append idle eq cleans
    | case4 s b rest idle freed released some next ih =>
      obtain ⟨calls, s', cleans⟩ := ih
      have somebody : s.graph.freedBy b ≠ [] := some
      have eq : (s.release b).askAll (s.graph.freedBy b) = next := by
        rw [release, if_neg somebody]
      exact CleansUp.of_append idle eq cleans
  obtain ⟨calls, s', cleans⟩ := ends
  have paid := cleans.calls_add_size_le
  exact ⟨calls, by omega, cleans.eq_settle ▸ cleans⟩

theorem exists_schedules (s : Session w ρ) (bs : List (Bear w)) :
    ∃ calls ≤ s.graph.size + bs.length, Schedules s bs calls (s.schedule bs) := by
  obtain ⟨calls, few, cleans⟩ := (s.askAll bs).1.exists_cleansUp (s.askAll bs).2
  have idle := s.length_askAll_le bs
  rw [graph_askAll] at few
  exact ⟨calls, by omega, cleans⟩

/-! ## What a step submits -/

/-- From `s` to `s'` the tasks of `fresh` were submitted, and nothing has ended. -/
def Submits (s s' : Session w ρ) (fresh : List (Ticket w ρ)) : Prop :=
  s'.inFlight = s.inFlight ++ fresh ∧
    History.submitted s'.history = History.submitted s.history ++ fresh

theorem Submits.trans {s mid s' : Session w ρ} {fresh more : List (Ticket w ρ)}
    (first : s.Submits mid fresh) (next : mid.Submits s' more) : s.Submits s' (fresh ++ more) := by
  unfold Submits
  rw [next.1, next.2, first.1, first.2, List.append_assoc, List.append_assoc]
  exact ⟨rfl, rfl⟩

/-- Remarks submit nothing. -/
theorem submits_nil_of_remarks {s s' : Session w ρ} {es : List (Event w ρ)}
    (remarks : ∀ e ∈ es, e.IsRemark) (inFlight : s'.inFlight = s.inFlight)
    (history : s'.history = s.history ++ es) : s.Submits s' [] := by
  obtain ⟨_, none, _, _⟩ := History.remarks remarks
  unfold Submits
  rw [inFlight, history, History.submitted_append, none, List.append_nil, List.append_nil]
  exact ⟨rfl, rfl⟩

theorem exists_submits_ask (s : Session w ρ) (b : Bear w) :
    ∃ fresh, s.Submits (s.ask b).1 fresh := by
  by_cases known : b ∈ s.scheduled
  · rw [ask, if_pos known]
    exact ⟨[], (List.append_nil _).symm, History.submitted_append _ _⟩
  · rw [ask_of_new known]
    refine ⟨s.tickets b, rfl, ?_⟩
    show History.submitted (s.history ++ s.interview b) = _
    rw [History.submitted_append, submitted_interview]

theorem exists_submits_askAll (s : Session w ρ) (bs : List (Bear w)) :
    ∃ fresh, s.Submits (s.askAll bs).1 fresh := by
  induction bs generalizing s with
  | nil => exact ⟨[], (List.append_nil _).symm, (List.append_nil _).symm⟩
  | cons b rest ih =>
    obtain ⟨fresh, first⟩ := s.exists_submits_ask b
    obtain ⟨more, next⟩ := ih (s.ask b).1
    exact ⟨fresh ++ more, first.trans next⟩

theorem exists_submits_settle (s : Session w ρ) (done : List (Bear w)) :
    ∃ fresh, s.Submits (s.settle done) fresh := by
  refine settle_induction (P := fun s' _ => ∃ fresh, s.Submits s' fresh) ?_ ?_ ?_
  · exact fun _ _ _ _ submits => submits
  · rintro s' b _ _ ⟨fresh, submits⟩
    obtain ⟨es, remarks, released⟩ := release_eq s' b
    obtain ⟨more, next⟩ := (s'.release b).exists_submits_askAll (s'.graph.freedBy b)
    have quiet : s'.Submits (s'.release b) [] :=
      submits_nil_of_remarks remarks (by rw [released]) (by rw [released])
    exact ⟨_, (submits.trans quiet).trans next⟩
  · exact ⟨[], (List.append_nil _).symm, (List.append_nil _).symm⟩

/-- When a task ends, the others stay in flight, and what is new was submitted. -/
theorem exists_submits_complete (sink : Sink σ ρ) (state : Session w ρ × σ) (t : Ticket w ρ)
    (outcome : Outcome ρ) :
    ∃ fresh, (complete sink state t outcome).1.inFlight = state.1.others t ++ fresh ∧
      History.submitted (complete sink state t outcome).1.history =
        History.submitted state.1.history ++ fresh := by
  obtain ⟨fresh, flying, submitted⟩ :=
    ((state.1.absorb t outcome).retire t).exists_submits_settle [t.bear]
  obtain ⟨ns, _, said⟩ := state.1.history_absorb_eq t outcome
  have silent : History.submitted ((state.1.absorb t outcome).retire t).history =
      History.submitted state.1.history := by
    show History.submitted (state.1.absorb t outcome).history = _
    rw [said, History.submitted_append, History.submitted_noticed, List.append_nil]
  rw [complete_eq]
  refine ⟨fresh, ?_, ?_⟩
  · rw [← inFlight_retire]
    exact flying
  · rw [← silent, ← submitted, History.submitted_append, sink.submitted_transcript, List.append_nil]
    rfl

/-! ## One task after another -/

/-- A task that is in flight ends. -/
def Ends (sink : Sink σ ρ) (now next : Session w ρ × σ) : Prop :=
  ∃ t ∈ now.1.inFlight, ∃ outcome, next = complete sink now t outcome

theorem length_others_lt {s : Session w ρ} {t : Ticket w ρ} (flying : t ∈ s.inFlight) :
    (s.others t).length < s.inFlight.length :=
  List.length_filter_lt_length_iff_exists.2 ⟨t, flying, by simp⟩

/-- Whenever a task ends, edges leave the graph, or it does not get smaller and fewer tasks are in
flight. -/
theorem wellFounded_ends (sink : Sink σ ρ) :
    WellFounded fun next now : Session w ρ × σ => Ends sink now next := by
  refine Subrelation.wf (r := InvImage (Prod.Lex (· < ·) (· < ·))
    fun state => (state.1.graph.size, state.1.inFlight.length)) ?_
    (InvImage.wf _ (Prod.lex Nat.lt_wfRel Nat.lt_wfRel).wf)
  rintro next now ⟨t, flying, outcome, rfl⟩
  obtain ⟨graph, inFlight⟩ := complete_keeps sink now t outcome
  show Prod.Lex _ _ (_, _) (_, _)
  rw [graph, inFlight]
  rcases now.1.inFlight_finish t outcome with less | ⟨le, same⟩
  · exact .left _ _ less
  · rw [same]
    rcases Nat.lt_or_eq_of_le le with less | eq
    · exact .left _ _ less
    · rw [eq]
      exact .right _ (length_others_lt flying)

/-- Between two states the task `t` has ended: it leaves the tasks in flight, and no other does.
What comes to them was submitted meanwhile. -/
structure Consumes (t : Ticket w ρ) (now next : Session w ρ) : Prop where
  submitted : t ∈ History.submitted now.history
  others : ∃ others fresh, now.inFlight.Perm (t :: others) ∧ next.inFlight = others ++ fresh ∧
    History.submitted next.history = History.submitted now.history ++ fresh
  gone : t ∉ next.inFlight

theorem Run.consumes {nextId : Nat} {supplied : List (Bear w)} {s : Session w ρ}
    {sink : Sink σ ρ} {taken : σ} {log : List (Moment w ρ)} {now : Session w ρ × σ}
    (built : (Session.start nextId supplied).2 = .ok s) (run : Run sink s taken log now)
    {t : Ticket w ρ} (flying : t ∈ now.1.inFlight) (outcome : Outcome ρ) :
    Consumes t now.1 (complete sink now t outcome).1 := by
  have books := (run.invariant built).books
  have next := ((run.ended flying outcome).invariant built).books
  obtain ⟨fresh, inFlight, submitted⟩ := exists_submits_complete sink now t outcome
  refine ⟨books.mem_submitted flying, ⟨now.1.others t, fresh, ?_, inFlight, submitted⟩, ?_⟩
  · exact Ticket.perm_cons_filter books.nodup_inFlight flying
  · refine next.not_mem_inFlight (e := ⟨t, outcome⟩) ?_
    rw [endings_ended]
    exact List.mem_append_right _ List.mem_cons_self

/-- At the end of a run all tasks that were submitted have ended. -/
theorem Run.length_endings {nextId : Nat} {supplied : List (Bear w)} {s : Session w ρ}
    {sink : Sink σ ρ} {taken : σ} {log : List (Moment w ρ)} {now : Session w ρ × σ}
    (built : (Session.start nextId supplied).2 = .ok s) (run : Run sink s taken log now)
    (landed : now.1.inFlight = []) :
    (Log.endings log).length = (History.submitted (Log.history log)).length := by
  have count := (run.invariant built).books.submitted.length_eq
  rw [landed, List.append_nil, List.length_map] at count
  rw [run.history_log, count]

end Session

/-- Whatever the bears do, a run comes to an end. From every state the recursion of scheduling and
cleaning up ends with what is computed. Each task that ends is one of those in flight, and leaves
them for good; there is no infinite sequence of tasks that end, in any order and with any outcomes.
When nothing is in flight any more, as many tasks have ended as were ever submitted. -/
theorem run_terminates {nextId : Nat} {supplied : List (Bear w)} {s : Session w ρ}
    {sink : Sink σ ρ} {taken : σ} {log : List (Moment w ρ)} {now : Session w ρ × σ}
    (built : (Session.start nextId supplied).2 = .ok s) (run : Session.Run sink s taken log now) :
    (∀ (s' : Session w ρ) (bs : List (Bear w)),
      (∃ calls ≤ s'.graph.size + bs.length, s'.Schedules bs calls (s'.schedule bs)) ∧
        ∃ calls ≤ s'.graph.size + bs.length, s'.CleansUp bs calls (s'.settle bs)) ∧
      (∀ t ∈ now.1.inFlight, ∀ outcome,
        Session.Consumes t now.1 (Session.complete sink now t outcome).1) ∧
      (∀ states : Nat → Session w ρ × σ, states 0 = now →
        ¬ ∀ n, Session.Ends sink (states n) (states (n + 1))) ∧
      (now.1.inFlight = [] →
        (Log.endings log).length = (History.submitted (Log.history log)).length) := by
  refine ⟨fun s' bs => ⟨s'.exists_schedules bs, s'.exists_cleansUp bs⟩,
    fun t flying => run.consumes built flying, fun states _ forever => ?_,
    run.length_endings built⟩
  have founded := Session.wellFounded_ends (w := w) sink
  exact (wellFounded_iff_isEmpty_descending_chain.1 founded).false ⟨states, forever⟩

namespace Sample

/-- The task that the only result of the first one calls for. -/
def follower : Ticket workspace Nat := (last (.ok [3])).1.inFlight.get ⟨0, by decide +kernel⟩

/-- The state in which both tasks have ended. -/
def landed : Session workspace Nat × Unit :=
  Session.complete sink (last (.ok [3])) follower (.ok [7])

theorem inFlight_landed : landed.1.inFlight = [] := List.isEmpty_iff.1 (by decide +kernel)

theorem run_landed : ∃ log, Session.Run sink session () log landed ∧
    Log.endings log = [⟨ticket, .ok [3]⟩, ⟨follower, .ok [7]⟩] := by
  refine ⟨_, .ended (run (.ok [3])) (List.get_mem ..) (.ok [7]), ?_⟩
  rw [Session.Run.endings_ended, endings_log]
  rfl

end Sample

theorem run_terminates_of_two :
    ∃ log, Session.Run Sample.sink Sample.session () log Sample.landed ∧
      Sample.landed.1.inFlight = [] ∧ (History.submitted (Log.history log)).length = 2 := by
  obtain ⟨log, run, ends⟩ := Sample.run_landed
  obtain ⟨_, _, _, count⟩ := run_terminates Sample.built run
  refine ⟨log, run, Sample.inFlight_landed, ?_⟩
  rw [← count Sample.inFlight_landed, ends]
  rfl

end AnalysisScheduler
