import AnalysisScheduler.Proofs.Run.Log
import AnalysisScheduler.Proofs.Run.Roster

/-!
# The books of a session

Every bear is asked once and every one of its tasks is submitted once; a submitted task is in flight
until it has ended, and each failure is reported by one notice (`Session.Ledger`). The books are
kept while a bear is asked (`Ledger.ask`), resolved (`Ledger.pass`, `Ledger.release`), and while a
task ends (`Ledger.absorb`).
-/

namespace AnalysisScheduler

variable {w : Workspace} {ρ σ : Type}

/-- The notice that a task has failed. -/
def Notice.isTaskFailed (n : Notice w) : Bool := n.level = .error && n.message = "task failed"

/-- The notices of failed tasks, in order. -/
def History.failures (h : List (Event w ρ)) : List (Notice w) :=
  (notices h).filter Notice.isTaskFailed

/-- An event that neither asks nor submits, and that reports neither a failed task nor anything that
should not happen. -/
def Event.IsRemark : Event w ρ → Prop
  | .asked .. | .submitted .. => False
  | .offered .. => True
  | .noticed n => n.level ≠ .warn ∧ n.isTaskFailed = false

theorem Notice.isTaskFailed_of_debug {n : Notice w} (debug : n.level = .debug) :
    n.isTaskFailed = false := by
  unfold isTaskFailed
  rw [debug]
  rfl

theorem Event.isRemark_of_debug {n : Notice w} (debug : n.level = .debug) :
    (Event.noticed n : Event w ρ).IsRemark :=
  And.intro (fun warn => nomatch debug.symm.trans warn) (Notice.isTaskFailed_of_debug debug)

theorem Event.isRemark_of_reception {reception : Reception} {n : Notice w}
    (mem : n ∈ reception.notices) : (Event.noticed n : Event w ρ).IsRemark := by
  cases reception with
  | accepted => cases mem
  | refused fault =>
    cases List.mem_singleton.1 mem
    exact And.intro Level.noConfusion rfl
  | panicked =>
    cases List.mem_singleton.1 mem
    exact And.intro Level.noConfusion rfl

theorem Event.isRemark_of_offer {result : ρ} {reception : Reception} {e : Event w ρ}
    (mem : e ∈ .offered result :: reception.notices.map .noticed) : e.IsRemark := by
  rcases List.mem_cons.1 mem with rfl | mem
  · trivial
  · obtain ⟨n, found, rfl⟩ := List.mem_map.1 mem
    exact Event.isRemark_of_reception found

namespace History

theorem asked_append (h more : List (Event w ρ)) : asked (h ++ more) = asked h ++ asked more :=
  List.filterMap_append

theorem submitted_append (h more : List (Event w ρ)) :
    submitted (h ++ more) = submitted h ++ submitted more := List.filterMap_append

theorem notices_append (h more : List (Event w ρ)) :
    notices (h ++ more) = notices h ++ notices more := List.filterMap_append

theorem failures_append (h more : List (Event w ρ)) :
    failures (h ++ more) = failures h ++ failures more := by
  unfold failures
  rw [notices_append, List.filter_append]

theorem asked_submissions (ts : List (Ticket w ρ)) : asked (ts.map Event.submitted) = [] := by
  induction ts with
  | nil => rfl
  | cons _ _ ih => exact ih

theorem submitted_submissions (ts : List (Ticket w ρ)) :
    submitted (ts.map Event.submitted) = ts := by
  induction ts with
  | nil => rfl
  | cons t _ ih => exact congrArg (t :: ·) ih

theorem notices_submissions (ts : List (Ticket w ρ)) : notices (ts.map Event.submitted) = [] := by
  induction ts with
  | nil => rfl
  | cons _ _ ih => exact ih

/-- Remarks leave no trace in the books. -/
theorem remarks {es : List (Event w ρ)} (remarks : ∀ e ∈ es, e.IsRemark) :
    asked es = [] ∧ submitted es = [] ∧ failures es = [] ∧ ∀ n ∈ notices es, n.level ≠ .warn := by
  induction es with
  | nil => exact ⟨rfl, rfl, rfl, fun _ mem => absurd mem List.not_mem_nil⟩
  | cons e es ih =>
    obtain ⟨noneAsked, noneSubmitted, noneFailed, calm⟩ :=
      ih fun e mem => remarks e (List.mem_cons_of_mem _ mem)
    have remark := remarks e List.mem_cons_self
    cases e with
    | asked => exact remark.elim
    | submitted => exact remark.elim
    | offered => exact ⟨noneAsked, noneSubmitted, noneFailed, calm⟩
    | noticed n =>
      refine ⟨noneAsked, noneSubmitted, ?_, fun n' mem => ?_⟩
      · show List.filter _ (n :: notices es) = []
        rw [List.filter_cons_of_neg (by rw [remark.2]; exact Bool.false_ne_true)]
        exact noneFailed
      · rcases List.mem_cons.1 mem with rfl | mem
        · exact remark.1
        · exact calm n' mem

end History

/-- A ticket can be taken out of a list by its number. -/
theorem Ticket.perm_cons_filter {ts : List (Ticket w ρ)} {t : Ticket w ρ}
    (nodup : (ts.map Ticket.id).Nodup) (mem : t ∈ ts) :
    ts.Perm (t :: ts.filter (·.id ≠ t.id)) := by
  induction ts with
  | nil => exact absurd mem List.not_mem_nil
  | cons u ts ih =>
    rw [List.map_cons, List.nodup_cons] at nodup
    rcases List.mem_cons.1 mem with rfl | mem
    · have others : ∀ u ∈ ts, u.id ≠ t.id := fun u mem same =>
        nodup.1 (same ▸ List.mem_map_of_mem mem)
      rw [List.filter_cons_of_neg (by simp),
        List.filter_eq_self.2 fun u mem => decide_eq_true (others u mem)]
    · have other : u.id ≠ t.id := fun same => nodup.1 (same ▸ List.mem_map_of_mem mem)
      rw [List.filter_cons_of_pos (by simpa using other)]
      exact ((ih nodup.2 mem).cons u).trans (List.Perm.swap t u _)

/-- What is reported of a task that has ended. -/
def Ending.report (e : Ending w ρ) : List (Event w ρ) := e.failure?.toList.map .noticed

theorem Ending.trace_report (e : Ending w ρ) :
    History.asked e.report = [] ∧ History.submitted e.report = [] ∧
      History.failures e.report = e.failure?.toList ∧
      (∀ b deliveries, .asked b deliveries ∉ e.report) ∧
      ∀ n ∈ History.notices e.report, n.level ≠ .warn := by
  obtain ⟨t, outcome⟩ := e
  cases outcome with
  | ok => exact ⟨rfl, rfl, rfl, fun _ _ => List.not_mem_nil, fun _ mem => nomatch mem⟩
  | error failure =>
    refine ⟨rfl, rfl, rfl, fun b deliveries mem => ?_, fun n mem => ?_⟩
    · cases List.mem_singleton.1 mem
    · rw [List.mem_singleton.1 mem]
      exact Level.noConfusion

namespace Session

theorem level_answer (s : Session w ρ) (b : Bear w) : (s.answer b).level = .debug := by
  unfold answer
  split <;> rfl

theorem asked_interview (s : Session w ρ) (b : Bear w) : History.asked (s.interview b) = [b] :=
  congrArg (b :: ·) (History.asked_submissions _)

theorem submitted_interview (s : Session w ρ) (b : Bear w) :
    History.submitted (s.interview b) = s.tickets b := History.submitted_submissions _

theorem notices_interview (s : Session w ρ) (b : Bear w) :
    History.notices (s.interview b) = [s.answer b] :=
  congrArg (s.answer b :: ·) (History.notices_submissions _)

theorem failures_interview (s : Session w ρ) (b : Bear w) :
    History.failures (s.interview b) = [] := by
  have debug := Notice.isTaskFailed_of_debug (level_answer s b)
  rw [History.failures, notices_interview,
    List.filter_cons_of_neg (by rw [debug]; exact Bool.false_ne_true)]
  rfl

theorem mem_interview_asked {s : Session w ρ} {b b' : Bear w} {deliveries : Deliveries w ρ} :
    .asked b' deliveries ∈ s.interview b ↔ b' = b ∧ deliveries = s.delivered b := by
  simp [interview]

theorem release_eq (s : Session w ρ) (b : Bear w) :
    ∃ es : List (Event w ρ), (∀ e ∈ es, e.IsRemark) ∧ s.release b =
      { s with
        running := s.running.erase b
        graph := s.graph.resolve b
        history := s.history ++ es } := by
  by_cases none : s.graph.freedBy b = []
  · refine ⟨[], fun _ mem => absurd mem List.not_mem_nil, ?_⟩
    rw [release, if_pos none, List.append_nil]
  · refine ⟨[.noticed (.released b (s.graph.freedBy b).length)], fun e mem => ?_, ?_⟩
    · rw [List.mem_singleton.1 mem]
      exact Event.isRemark_of_debug rfl
    · rw [release, if_neg none]
      rfl

/-- The books of a session in which the tasks of `done` have ended and the bears of `todo` are still
to be resolved. -/
structure Ledger (done : List (Ending w ρ)) (todo : List (Bear w)) (s : Session w ρ) : Prop where
  asked : History.asked s.history = s.scheduled
  nodup : s.scheduled.Nodup
  submitted : (History.submitted s.history).Perm (done.map Ending.ticket ++ s.inFlight)
  ids : (History.submitted s.history).map Ticket.id = List.range s.nextTicket
  owner : ∀ t ∈ History.submitted s.history, t.bear ∈ s.scheduled
  /-- What was asked for is what was submitted. -/
  tasks : ∀ b deliveries, .asked b deliveries ∈ s.history →
    ((History.submitted s.history).filter (·.bear = b)).map Ticket.task = b.tasks deliveries
  running : ∀ b, (s.running.get? b).getD [] = (s.inFlight.filter (·.bear = b)).map Ticket.id
  /-- A bear without unfinished tasks is taken off at once. -/
  tidy : ∀ b, s.running.get? b = some [] → b ∈ todo
  failures : History.failures s.history = done.filterMap Ending.failure?
  calm : ∀ n ∈ History.notices s.history, n.level ≠ .warn

variable {done : List (Ending w ρ)} {todo : List (Bear w)} {s : Session w ρ}

namespace Ledger

/-- Neither the graph nor the buffers are in the books, and remarks are not either. -/
theorem of_remarks {s' : Session w ρ} (books : Ledger done todo s) (graph : WaitGraph (Bear w))
    (buffers : OrderedMap (Bear w) (Deliveries w ρ)) (es : List (Event w ρ))
    (remarks : ∀ e ∈ es, e.IsRemark)
    (same : s' = { s with graph := graph, buffers := buffers, history := s.history ++ es }) :
    Ledger done todo s' := by
  subst same
  obtain ⟨noneAsked, noneSubmitted, noneFailed, calm⟩ := History.remarks remarks
  have sameSubmitted : History.submitted (s.history ++ es) = History.submitted s.history := by
    rw [History.submitted_append, noneSubmitted, List.append_nil]
  refine { books with
    asked := ?_, submitted := ?_, ids := ?_, owner := ?_, tasks := ?_, failures := ?_, calm := ?_ }
  · exact (History.asked_append ..).trans (by rw [noneAsked, List.append_nil, books.asked])
  · exact sameSubmitted ▸ books.submitted
  · exact sameSubmitted ▸ books.ids
  · exact sameSubmitted ▸ books.owner
  · intro b deliveries mem
    refine sameSubmitted ▸ books.tasks b deliveries ?_
    refine (List.mem_append.1 mem).resolve_right fun mem => ?_
    exact remarks _ mem
  · exact (History.failures_append ..).trans (by rw [noneFailed, List.append_nil, books.failures])
  · intro n mem
    rw [History.notices_append, List.mem_append] at mem
    exact mem.elim (books.calm n) (calm n)

theorem mem_submitted (books : Ledger done todo s) {t : Ticket w ρ} (flying : t ∈ s.inFlight) :
    t ∈ History.submitted s.history :=
  books.submitted.mem_iff.2 (List.mem_append_right _ flying)

theorem nodup_submitted (books : Ledger done todo s) :
    ((History.submitted s.history).map Ticket.id).Nodup := books.ids ▸ List.nodup_range

theorem nodup_inFlight (books : Ledger done todo s) : (s.inFlight.map Ticket.id).Nodup := by
  have nodup := books.nodup_submitted
  rw [(books.submitted.map _).nodup_iff, List.map_append] at nodup
  exact (List.nodup_append.1 nodup).2.1

/-- A task that has ended is not in flight. -/
theorem not_mem_inFlight (books : Ledger done todo s) {e : Ending w ρ} (ended : e ∈ done) :
    e.ticket ∉ s.inFlight := by
  have apart := books.submitted.nodup_iff.1 books.nodup_submitted.of_map
  exact List.disjoint_of_nodup_append apart (List.mem_map_of_mem ended)

theorem isBusy_iff (books : Ledger done todo s) {b : Bear w} :
    s.isBusy b = true ↔ ∃ t ∈ s.inFlight, t.bear = b := by
  unfold isBusy
  rw [books.running, Bool.not_eq_true', List.isEmpty_eq_false_iff, ne_eq, List.map_eq_nil_iff,
    List.filter_eq_nil_iff]
  simp

/-! ## Asking -/

theorem ask (books : Ledger done todo s) {b : Bear w} (new : b ∉ s.scheduled) :
    Ledger done ((s.ask b).2 ++ todo) (s.ask b).1 := by
  rw [ask_of_new new]
  have others : ∀ t ∈ History.submitted s.history, t.bear ≠ b := fun t mem same =>
    new (same ▸ books.owner t mem)
  have submitted : History.submitted (s.history ++ s.interview b) =
      History.submitted s.history ++ s.tickets b := by
    rw [History.submitted_append, submitted_interview]
  have flying : s.inFlight.filter (·.bear = b) = [] :=
    filter_bear_eq_nil fun t mem => others t (books.mem_submitted mem)
  refine { asked := ?_, nodup := ?_, submitted := ?_, ids := ?_, owner := ?_, tasks := ?_,
           running := ?_, tidy := ?_, failures := ?_, calm := ?_ }
  · rw [History.asked_append, asked_interview, books.asked]
  · refine List.nodup_append.2 ⟨books.nodup, List.nodup_singleton b, fun a ha b' hb same => ?_⟩
    exact new (List.mem_singleton.1 hb ▸ same ▸ ha)
  · rw [submitted, ← List.append_assoc]
    exact books.submitted.append_right _
  · rw [submitted, List.map_append, books.ids, map_id_tickets, List.range_eq_range',
      List.range_eq_range', ← List.range'_append_1, Nat.zero_add]
  · intro t mem
    rw [submitted, List.mem_append] at mem
    refine List.mem_append.2 (mem.imp (books.owner t) fun mem => ?_)
    exact bear_of_mem_tickets mem ▸ List.mem_singleton_self _
  · intro b' deliveries mem
    rw [submitted, List.filter_append, filter_tickets, List.map_append]
    rcases List.mem_append.1 mem with old | fresh
    · have other : b' ≠ b := fun same =>
        new (same ▸ books.asked ▸ History.mem_asked_iff.2 ⟨deliveries, old⟩)
      rw [books.tasks b' deliveries old, if_neg other]
      exact List.append_nil _
    · obtain ⟨rfl, rfl⟩ := mem_interview_asked.1 fresh
      rw [filter_bear_eq_nil others, if_pos rfl]
      exact map_task_tickets s b'
  · -- A bear without tasks gets no entry, so the noted numbers are compared by their value.
    intro b'
    rw [List.filter_append, filter_tickets, List.map_append, ← books.running]
    dsimp only
    by_cases same : b' = b
    · subst same
      rw [books.running, flying, if_pos rfl]
      split
      · rename_i none
        rw [books.running, flying, none]
        rfl
      · rw [OrderedMap.get?_insert, if_pos rfl]
        rfl
    · rw [if_neg same, List.map_nil, List.append_nil]
      split
      · rfl
      · rw [OrderedMap.get?_insert, if_neg same]
  · intro b' empty
    refine List.mem_append_right _ ?_
    dsimp only at empty
    split at empty
    · exact books.tidy b' empty
    · rename_i some
      rw [OrderedMap.get?_insert] at empty
      split at empty
      · exact absurd (List.map_eq_nil_iff.1 (Option.some.inj empty)) some
      · exact books.tidy b' empty
  · rw [History.failures_append, failures_interview, List.append_nil, books.failures]
  · intro n mem
    rw [History.notices_append, notices_interview, List.mem_append, List.mem_singleton] at mem
    rcases mem with mem | rfl
    · exact books.calm n mem
    · rw [level_answer]
      exact Level.noConfusion

/-! ## Resolving -/

theorem mono (books : Ledger done todo s) {todo' : List (Bear w)} (more : ∀ b ∈ todo, b ∈ todo') :
    Ledger done todo' s :=
  { books with tidy := fun b empty => more b (books.tidy b empty) }

theorem pass {b : Bear w} {rest : List (Bear w)} (books : Ledger done (b :: rest) s)
    (busy : s.isBusy b = true) : Ledger done rest s := by
  refine { books with tidy := fun b' empty => ?_ }
  rcases List.mem_cons.1 (books.tidy b' empty) with rfl | mem
  · unfold isBusy at busy
    rw [empty] at busy
    exact absurd busy Bool.false_ne_true
  · exact mem

theorem release {b : Bear w} {rest : List (Bear w)} (books : Ledger done (b :: rest) s)
    (idle : s.isBusy b = false) : Ledger done rest (s.release b) := by
  have landed : s.inFlight.filter (·.bear = b) = [] :=
    filter_bear_eq_nil fun t mem same =>
      Bool.eq_false_iff.1 idle (books.isBusy_iff.2 ⟨t, mem, same⟩)
  have erased : Ledger done rest { s with running := s.running.erase b } := by
    refine { books with running := fun b' => ?_, tidy := fun b' empty => ?_ }
    · rw [OrderedMap.get?_erase]
      split
      · rename_i same
        rw [same, landed]
        rfl
      · exact books.running b'
    · rw [OrderedMap.get?_erase] at empty
      split at empty
      · cases empty
      · rename_i other
        exact (List.mem_cons.1 (books.tidy b' empty)).resolve_left other
  obtain ⟨es, remarks, released⟩ := release_eq s b
  exact erased.of_remarks (s.graph.resolve b) s.buffers es remarks released

/-! ## Ending a task -/

/-- A task in flight is among those that are noted as running. -/
theorem running_of_mem (books : Ledger done todo s) {t : Ticket w ρ} (flying : t ∈ s.inFlight) :
    s.running.get? t.bear = some ((s.inFlight.filter (·.bear = t.bear)).map Ticket.id) := by
  have noted := books.running t.bear
  have mem : t.id ∈ (s.inFlight.filter (·.bear = t.bear)).map Ticket.id :=
    List.mem_map_of_mem (List.mem_filter.2 ⟨flying, decide_eq_true rfl⟩)
  cases found : s.running.get? t.bear with
  | none =>
    rw [found] at noted
    rw [← noted] at mem
    exact absurd mem List.not_mem_nil
  | some ids =>
    rw [found] at noted
    exact congrArg some noted

/-- A task is crossed off, and its failure is reported. -/
theorem retire (books : Ledger done [] s) {t : Ticket w ρ} (flying : t ∈ s.inFlight)
    (outcome : Outcome ρ) :
    Ledger (done ++ [⟨t, outcome⟩]) [t.bear]
      (Session.retire { s with history := s.history ++ Ending.report ⟨t, outcome⟩ } t) := by
  obtain ⟨noneAsked, noneSubmitted, failed, noAsked, calm⟩ := Ending.trace_report ⟨t, outcome⟩
  have sameSubmitted : History.submitted (s.history ++ Ending.report ⟨t, outcome⟩) =
      History.submitted s.history := by
    rw [History.submitted_append, noneSubmitted, List.append_nil]
  have noted := books.running_of_mem flying
  have running : ∀ b, (Session.retire s t).running.get? b =
      if b = t.bear then some (((s.inFlight.filter (·.bear = t.bear)).map Ticket.id).erase t.id)
      else s.running.get? b := by
    intro b
    rw [Session.retire, noted]
    exact OrderedMap.get?_insert ..
  refine { asked := ?_, nodup := books.nodup, submitted := ?_, ids := ?_, owner := ?_, tasks := ?_,
           running := fun b => ?_, tidy := fun b empty => ?_, failures := ?_, calm := ?_ }
  · exact (History.asked_append ..).trans (by rw [noneAsked, List.append_nil, books.asked]; rfl)
  · show (History.submitted (s.history ++ _)).Perm _
    rw [sameSubmitted, List.map_append, List.append_assoc]
    exact books.submitted.trans
      ((Ticket.perm_cons_filter books.nodup_inFlight flying).append_left _)
  · exact (congrArg (List.map Ticket.id) sameSubmitted).trans books.ids
  · intro u mem
    exact books.owner u (sameSubmitted ▸ mem)
  · intro b deliveries mem
    show ((History.submitted (s.history ++ _)).filter _).map _ = _
    rw [sameSubmitted]
    exact books.tasks b deliveries ((List.mem_append.1 mem).resolve_right (noAsked b deliveries))
  · show ((Session.retire s t).running.get? b).getD [] = ((s.others t).filter _).map _
    rw [running]
    split
    · rename_i same
      subst same
      have nodup : ((s.inFlight.filter (·.bear = t.bear)).map Ticket.id).Nodup :=
        (List.filter_sublist.map _).nodup books.nodup_inFlight
      rw [Option.getD_some, nodup.erase_eq_filter, List.filter_map, others, List.filter_comm]
      congr 2
      exact List.filter_congr fun u _ => (decide_not ..).symm
    · rename_i other
      rw [books.running, others, List.filter_filter]
      congr 1
      refine List.filter_congr fun u mem => ?_
      by_cases mine : u.bear = b
      · -- The number tells `u` from `t`, and the bear of `u` is not that of `t`.
        have apart : u.id ≠ t.id := fun same =>
          other (mine ▸ congrArg Ticket.bear
            (List.inj_on_of_nodup_map books.nodup_inFlight mem flying same))
        rw [decide_eq_true mine, decide_eq_true apart]
        rfl
      · rw [decide_eq_false mine]
        rfl
  · change (Session.retire s t).running.get? b = some [] at empty
    rw [running] at empty
    split at empty
    · rename_i same
      exact same ▸ List.mem_singleton_self _
    · exact absurd (books.tidy b empty) List.not_mem_nil
  · refine (History.failures_append ..).trans ?_
    rw [failed, books.failures, List.filterMap_append]
    rfl
  · intro n mem
    change n ∈ History.notices (s.history ++ _) at mem
    rw [History.notices_append, List.mem_append] at mem
    exact mem.elim (books.calm n) (calm n)

theorem absorb (books : Ledger done [] s) (acyclic : s.graph.Acyclic) {t : Ticket w ρ}
    (flying : t ∈ s.inFlight) (outcome : Outcome ρ) :
    Ledger (done ++ [⟨t, outcome⟩]) [t.bear] ((s.absorb t outcome).retire t) := by
  have retired := books.retire flying outcome
  cases outcome with
  | ok results =>
    refine retired.of_remarks s.graph (s.deliver t.bear results).buffers []
      (fun _ mem => nomatch mem) ?_
    simp only [Session.retire, Session.absorb, Session.deliver, Ending.report, Ending.failure?,
      others, Option.toList_none, List.map_nil, List.append_nil]
  | error failure =>
    obtain ⟨bs, graph, buffers, withdrawn, _⟩ :=
      withdrawDependants_eq (s := s.note (.taskFailed t.bear failure)) acyclic t.bear
    refine retired.of_remarks graph buffers (bs.map fun b => .noticed (.withdrawn b t.bear))
      (fun e mem => ?_) ?_
    · obtain ⟨b, _, rfl⟩ := List.mem_map.1 mem
      exact Event.isRemark_of_debug rfl
    · rw [Session.absorb, withdrawn]
      rfl

/-! ## The beginning and the sink -/

theorem ofRoster {supplied : List (Bear w)} {r : Roster w} {said : List (Notice w)}
    (debug : ∀ n ∈ said, n.level = .debug) :
    Ledger [] [] (Session.ofRoster supplied r said : Session w ρ) := by
  have remarks : ∀ e ∈ (Session.ofRoster supplied r said : Session w ρ).history, e.IsRemark := by
    intro e mem
    obtain ⟨n, rfl, quiet⟩ := level_of_ofRoster debug mem
    exact Event.isRemark_of_debug quiet
  obtain ⟨noneAsked, noneSubmitted, noneFailed, calm⟩ := History.remarks remarks
  exact {
    asked := noneAsked
    nodup := .nil
    submitted := by rw [noneSubmitted]; exact .nil
    ids := by rw [noneSubmitted]; rfl
    owner := by rw [noneSubmitted]; exact fun _ mem => nomatch mem
    tasks := fun b deliveries mem => (remarks _ mem).elim
    running := fun _ => rfl
    tidy := fun _ empty => nomatch empty
    failures := noneFailed
    calm := calm }

theorem offer (sink : Sink σ ρ) {taken : σ} (books : Ledger done todo s) (result : ρ) :
    Ledger done todo (Session.offer sink (s, taken) result).1 :=
  books.of_remarks _ _ _ (fun _ => Event.isRemark_of_offer) (offer_eq sink (s, taken) result)

end Ledger

end Session

end AnalysisScheduler
