import AnalysisScheduler.Proofs.Collection.OrderedMap
import AnalysisScheduler.Proofs.Graph.Closure
import AnalysisScheduler.Run.Run

/-!
# The steps of a session

What each step does to a session, in one equation or a few: a bear that is asked for the first time
(`ask_of_new`), a bear that is resolved (`release`, `settle_induction`), results that are delivered
(`delivered_deliver`), dependants that are withdrawn (`withdrawDependants_eq`) and results that are
offered to the sink (`foldl_offer_eq`). Every step only adds to the history (`history_complete`).
-/

namespace AnalysisScheduler

namespace OrderedMap

variable {α : Type u} {β : Type v} [DecidableEq α]

theorem get?_foldl_erase {m : OrderedMap α β} {ks : List α} {k : α} :
    (ks.foldl erase m).get? k = if k ∈ ks then none else m.get? k := by
  induction ks generalizing m with
  | nil => simp
  | cons a ks ih =>
    rw [List.foldl_cons, ih, get?_erase]
    by_cases h : k ∈ ks
    · simp [h]
    · by_cases same : k = a <;> simp [h, same]

end OrderedMap

theorem WaitGraph.edge_foldl_resolve {α : Type u} [DecidableEq α] {g : WaitGraph α}
    {ns : List α} {d b : α} :
    (ns.foldl resolve g).Edge d b ↔ g.Edge d b ∧ d ∉ ns ∧ b ∉ ns := by
  induction ns generalizing g with
  | nil => simp
  | cons n ns ih =>
    rw [List.foldl_cons, ih, edge_resolve, List.mem_cons, List.mem_cons, not_or, not_or]
    constructor
    · rintro ⟨⟨edge, hd, hb⟩, hd', hb'⟩
      exact ⟨edge, ⟨hd, hd'⟩, hb, hb'⟩
    · rintro ⟨edge, ⟨hd, hd'⟩, hb, hb'⟩
      exact ⟨⟨edge, hd, hb⟩, hd', hb'⟩

/-- Whether a notice is about an answer of the sink. -/
def Notice.isOfSink {w : Workspace} : Notice w → Bool
  | .sinkFailed _ | .sinkPanicked => true
  | _ => false

namespace Sink

variable {w : Workspace} {ρ σ : Type}

/-- What has become of a sink when it has taken some results. -/
def after (sink : Sink σ ρ) (taken : σ) (results : List ρ) : σ :=
  results.foldl (fun taken r => (sink.receive taken r).1) taken

/-- What is recorded while results are offered one after another. -/
def transcript (sink : Sink σ ρ) (taken : σ) : List ρ → List (Event w ρ)
  | [] => []
  | r :: rest =>
    .offered r :: (sink.receive taken r).2.notices.map .noticed ++
      sink.transcript (sink.receive taken r).1 rest

end Sink

namespace Session

variable {w : Workspace} {ρ σ : Type}

/-! ## Asking -/

/-- All that has been delivered to a bear that is still to be asked. -/
def delivered (s : Session w ρ) (b : Bear w) : Deliveries w ρ := (s.buffers.get? b).getD .empty

/-- The tasks of a bear as they would be submitted now. -/
def tickets (s : Session w ρ) (b : Bear w) : List (Ticket w ρ) :=
  (b.tasks (s.delivered b)).mapIdx fun i t => ⟨s.nextTicket + i, b, t⟩

/-- What is said when a bear is asked for the first time. -/
def answer (s : Session w ρ) (b : Bear w) : Notice w :=
  if s.tickets b = [] then .noTasks b else .scheduling b (s.tickets b).length

/-- What is recorded when a bear is asked for the first time. -/
def interview (s : Session w ρ) (b : Bear w) : List (Event w ρ) :=
  .asked b (s.delivered b) :: .noticed (s.answer b) :: (s.tickets b).map .submitted

theorem bear_of_mem_tickets {s : Session w ρ} {b : Bear w} {t : Ticket w ρ}
    (mem : t ∈ s.tickets b) : t.bear = b := by
  obtain ⟨i, _, rfl⟩ := List.mem_mapIdx.1 mem
  rfl

theorem filter_bear_eq_nil {ts : List (Ticket w ρ)} {b : Bear w} (none : ∀ t ∈ ts, t.bear ≠ b) :
    ts.filter (·.bear = b) = [] :=
  List.filter_eq_nil_iff.2 fun t mem same => none t mem (of_decide_eq_true same)

theorem filter_tickets (s : Session w ρ) (b b' : Bear w) :
    (s.tickets b).filter (·.bear = b') = if b' = b then s.tickets b else [] := by
  split
  · rename_i same
    exact List.filter_eq_self.2 fun t mem =>
      decide_eq_true ((bear_of_mem_tickets mem).trans same.symm)
  · rename_i other
    exact filter_bear_eq_nil fun t mem same => other (same.symm.trans (bear_of_mem_tickets mem))

theorem map_task_tickets (s : Session w ρ) (b : Bear w) :
    (s.tickets b).map Ticket.task = b.tasks (s.delivered b) := by
  unfold tickets
  exact List.ext_getElem (by simp) (by simp)

theorem map_id_tickets (s : Session w ρ) (b : Bear w) :
    (s.tickets b).map Ticket.id = List.range' s.nextTicket (s.tickets b).length := by
  unfold tickets
  exact List.ext_getElem (by simp) (by simp)

theorem tickets_eq_nil_iff {s : Session w ρ} {b : Bear w} :
    s.tickets b = [] ↔ b.tasks (s.delivered b) = [] := List.mapIdx_eq_nil_iff

/-- A bear that is asked for the first time uses up its deliveries and has its tasks submitted; it
is handed back if there are none. -/
theorem ask_of_new {s : Session w ρ} {b : Bear w} (new : b ∉ s.scheduled) :
    s.ask b =
      ({ s with
          scheduled := s.scheduled ++ [b]
          buffers := s.buffers.erase b
          running := if s.tickets b = [] then s.running
            else s.running.insert b ((s.tickets b).map Ticket.id)
          inFlight := s.inFlight ++ s.tickets b
          nextTicket := s.nextTicket + (s.tickets b).length
          history := s.history ++ s.interview b },
        if s.tickets b = [] then [b] else []) := by
  unfold ask interview answer
  rw [if_neg new]
  by_cases none : b.tasks (s.delivered b) = []
  · have empty : s.tickets b = [] := tickets_eq_nil_iff.2 none
    have idle : (b.tasks ((s.buffers.get? b).getD .empty)).isEmpty = true :=
      List.isEmpty_iff.2 none
    simp only [idle, empty, if_true, note, record, List.append_nil, List.append_assoc,
      List.length_nil, List.map_nil, Nat.add_zero]
    rfl
  · have some : s.tickets b ≠ [] := fun h => none (tickets_eq_nil_iff.1 h)
    have busy : ¬ (b.tasks ((s.buffers.get? b).getD .empty)).isEmpty = true := fun h =>
      none (List.isEmpty_iff.1 h)
    have length : (s.tickets b).length = (b.tasks (s.delivered b)).length := List.length_mapIdx
    simp only [if_neg some, if_neg busy, note, record, submit, length, List.append_assoc]
    rfl

/-! ## Resolving -/

/-- A bear without unfinished tasks leaves the graph. -/
def release (s : Session w ρ) (b : Bear w) : Session w ρ :=
  let s' := { s with running := s.running.erase b, graph := s.graph.resolve b }
  if s.graph.freedBy b = [] then s' else s'.note (.released b (s.graph.freedBy b).length)

theorem settle_nil (s : Session w ρ) : s.settle [] = s := by
  rw [settle]

theorem settle_of_busy {s : Session w ρ} {b : Bear w} (busy : s.isBusy b = true)
    (rest : List (Bear w)) : s.settle (b :: rest) = s.settle rest := by
  rw [settle, if_pos busy]

/-- A bear without unfinished tasks is released, and those that this frees are asked at once. -/
theorem settle_of_idle {s : Session w ρ} {b : Bear w} (idle : s.isBusy b = false)
    (rest : List (Bear w)) :
    s.settle (b :: rest) = ((s.release b).askAll (s.graph.freedBy b)).1.settle
      (((s.release b).askAll (s.graph.freedBy b)).2 ++ rest) := by
  rw [settle, if_neg (Bool.eq_false_iff.1 idle)]
  unfold release
  dsimp only
  split
  · rename_i none
    rw [none]
    rfl
  · rfl

/-- What holds of a session and of the bears that are to be resolved still holds when nobody is left
to be resolved, if it survives passing over a busy bear and releasing one that is not. -/
theorem settle_induction {P : Session w ρ → List (Bear w) → Prop}
    (busy : ∀ s b rest, s.isBusy b = true → P s (b :: rest) → P s rest)
    (idle : ∀ s b rest, s.isBusy b = false → P s (b :: rest) →
      P ((s.release b).askAll (s.graph.freedBy b)).1
        (((s.release b).askAll (s.graph.freedBy b)).2 ++ rest))
    {s : Session w ρ} {done : List (Bear w)} (start : P s done) : P (s.settle done) [] := by
  fun_induction settle s done with
  | case1 => exact start
  | case2 s b rest isBusy ih => exact ih (busy s b rest isBusy start)
  | case3 s b rest isIdle freed s' none ih =>
    have next := idle s b rest (Bool.eq_false_iff.2 isIdle) start
    have nobody : s.graph.freedBy b = [] := none
    rw [release, if_pos nobody, nobody] at next
    exact ih next
  | case4 s b rest isIdle freed s' some next ih =>
    have next := idle s b rest (Bool.eq_false_iff.2 isIdle) start
    have somebody : s.graph.freedBy b ≠ [] := some
    rw [release, if_neg somebody] at next
    exact ih next

/-! ## Delivering -/

theorem getD_get?_foldl_receive (source : Bear w) (results : List ρ) {bs : List (Bear w)}
    (nodup : bs.Nodup) (buffers : OrderedMap (Bear w) (Deliveries w ρ)) (b : Bear w) :
    ((bs.foldl (fun buffers b => buffers.insert b
      (((buffers.get? b).getD .empty).receive source results)) buffers).get? b).getD .empty =
      if b ∈ bs then ((buffers.get? b).getD .empty).receive source results
      else (buffers.get? b).getD .empty := by
  induction bs generalizing buffers with
  | nil => simp
  | cons a bs ih =>
    rw [List.nodup_cons] at nodup
    rw [List.foldl_cons, ih nodup.2, OrderedMap.get?_insert]
    by_cases same : b = a
    · subst same
      simp [nodup.1]
    · simp [same]

/-- Who waits on the source receives its results. -/
theorem delivered_deliver (s : Session w ρ) (source : Bear w) (results : List ρ) (b : Bear w) :
    (s.deliver source results).delivered b =
      if s.graph.Edge source b then (s.delivered b).receive source results else s.delivered b :=
  getD_get?_foldl_receive source results (s.graph.nodup_dependantsOf source) s.buffers b

theorem mem_keys_deliver (s : Session w ρ) (source : Bear w) (results : List ρ) (b : Bear w) :
    b ∈ (s.deliver source results).buffers.keys ↔
      b ∈ s.buffers.keys ∨ s.graph.Edge source b := by
  unfold deliver WaitGraph.Edge
  generalize s.graph.dependantsOf source = bs
  generalize s.buffers = buffers
  induction bs generalizing buffers with
  | nil => simp
  | cons a bs ih =>
    refine (ih _).trans ?_
    rw [OrderedMap.mem_keys_insert, List.mem_cons, or_assoc, or_left_comm]

/-! ## Withdrawing -/

theorem foldl_withdraw {s : Session w ρ} {failed : Bear w} {bs : List (Bear w)} :
    bs.foldl (withdraw failed) s =
      { s with
        graph := bs.foldl WaitGraph.resolve s.graph
        buffers := bs.foldl OrderedMap.erase s.buffers
        history := s.history ++ bs.map fun b => .noticed (.withdrawn b failed) } := by
  induction bs generalizing s with
  | nil => simp
  | cons b bs ih =>
    rw [List.foldl_cons, ih]
    simp [withdraw, note, record]

/-- In a graph without cycles exactly the transitive dependants of a failed bear are withdrawn. -/
theorem withdrawDependants_eq_foldl {s : Session w ρ} (acyclic : s.graph.Acyclic)
    (failed : Bear w) :
    ∃ bs : List (Bear w), (∀ b, b ∈ bs ↔ Relation.TransGen s.graph.Edge failed b) ∧
      s.withdrawDependants failed =
        { s with
          graph := bs.foldl WaitGraph.resolve s.graph
          buffers := bs.foldl OrderedMap.erase s.buffers
          history := s.history ++ bs.map fun b => .noticed (.withdrawn b failed) } := by
  obtain ⟨bs, found, mem⟩ := WaitGraph.allDependantsOf_eq_ok acyclic failed
  refine ⟨bs, mem, ?_⟩
  unfold withdrawDependants
  rw [found]
  exact foldl_withdraw

/-- The transitive dependants of a failed bear lose their edges and what has been delivered to
them. -/
theorem withdrawDependants_eq {s : Session w ρ} (acyclic : s.graph.Acyclic) (failed : Bear w) :
    ∃ (bs : List (Bear w)) (graph : WaitGraph (Bear w))
      (buffers : OrderedMap (Bear w) (Deliveries w ρ)),
      s.withdrawDependants failed =
        { s with
          graph := graph
          buffers := buffers
          history := s.history ++ bs.map fun b => .noticed (.withdrawn b failed) } ∧
      (∀ d b, graph.Edge d b ↔ s.graph.Edge d b ∧
        ¬ Relation.TransGen s.graph.Edge failed d ∧ ¬ Relation.TransGen s.graph.Edge failed b) ∧
      (∀ b, Relation.TransGen s.graph.Edge failed b → buffers.get? b = none) ∧
      ∀ b, ¬ Relation.TransGen s.graph.Edge failed b → buffers.get? b = s.buffers.get? b := by
  obtain ⟨bs, mem, eq⟩ := withdrawDependants_eq_foldl acyclic failed
  refine ⟨bs, _, _, eq, fun d b => ?_, fun b path => ?_, fun b path => ?_⟩
  · rw [WaitGraph.edge_foldl_resolve, mem, mem]
  · rw [OrderedMap.get?_foldl_erase, if_pos ((mem b).2 path)]
  · rw [OrderedMap.get?_foldl_erase, if_neg (mt (mem b).1 path)]

/-! ## The history grows -/

theorem history_ask (s : Session w ρ) (b : Bear w) : s.history <+: (s.ask b).1.history := by
  by_cases h : b ∈ s.scheduled
  · rw [ask, if_pos h]
    exact List.prefix_append _ _
  · rw [ask_of_new h]
    exact List.prefix_append _ _

theorem history_askAll (s : Session w ρ) (bs : List (Bear w)) :
    s.history <+: (s.askAll bs).1.history := by
  induction bs generalizing s with
  | nil => exact List.prefix_refl _
  | cons b rest ih => exact (s.history_ask b).trans (ih _)

/-- A bear that is released leaves a notice at most. -/
theorem history_release_eq (s : Session w ρ) (b : Bear w) :
    ∃ ns : List (Notice w), (∀ n ∈ ns, n.isOfSink = false) ∧
      (s.release b).history = s.history ++ ns.map .noticed := by
  unfold release
  dsimp only
  split
  · exact ⟨[], fun _ mem => absurd mem List.not_mem_nil, (List.append_nil _).symm⟩
  · exact ⟨[.released b (s.graph.freedBy b).length], by simp [Notice.isOfSink], rfl⟩

theorem history_release (s : Session w ρ) (b : Bear w) : s.history <+: (s.release b).history := by
  obtain ⟨ns, _, grown⟩ := s.history_release_eq b
  exact grown ▸ List.prefix_append _ _

theorem history_settle (s : Session w ρ) (done : List (Bear w)) :
    s.history <+: (s.settle done).history := by
  refine settle_induction (P := fun s' _ => s.history <+: s'.history) ?_ ?_ (List.prefix_refl _)
  · exact fun _ _ _ _ h => h
  · exact fun s' b _ _ h => (h.trans (s'.history_release b)).trans (history_askAll _ _)

/-- What a task ended with leaves notices only, before its bear is resolved. -/
theorem history_absorb_eq (s : Session w ρ) (t : Ticket w ρ) (outcome : Outcome ρ) :
    ∃ ns : List (Notice w), (∀ n ∈ ns, n.isOfSink = false) ∧
      (s.absorb t outcome).history = s.history ++ ns.map .noticed := by
  cases outcome with
  | ok results =>
    exact ⟨[], fun _ mem => absurd mem List.not_mem_nil, (List.append_nil _).symm⟩
  | error failure =>
    unfold absorb withdrawDependants
    dsimp only
    split
    · rename_i cycle _
      exact ⟨[.taskFailed t.bear failure, .untraced t.bear cycle], by simp [Notice.isOfSink],
        List.append_assoc ..⟩
    · rename_i dependants _
      refine ⟨.taskFailed t.bear failure :: dependants.map (.withdrawn · t.bear),
        by simp [Notice.isOfSink], ?_⟩
      rw [foldl_withdraw, List.map_cons, List.map_map]
      exact List.append_assoc ..

theorem history_absorb (s : Session w ρ) (t : Ticket w ρ) (outcome : Outcome ρ) :
    s.history <+: (s.absorb t outcome).history := by
  obtain ⟨ns, _, grown⟩ := s.history_absorb_eq t outcome
  exact grown ▸ List.prefix_append _ _

theorem inFlight_retire (s : Session w ρ) (t : Ticket w ρ) (outcome : Outcome ρ) :
    ((s.absorb t outcome).retire t).inFlight = s.others t := by
  show (s.absorb t outcome).others t = _
  unfold others
  rw [inFlight_absorb]

theorem history_finish (s : Session w ρ) (t : Ticket w ρ) (outcome : Outcome ρ) :
    s.history <+: (s.finish t outcome).history :=
  (s.history_absorb t outcome).trans (history_settle ((s.absorb t outcome).retire t) _)

theorem offer_eq (sink : Sink σ ρ) (state : Session w ρ × σ) (result : ρ) :
    (offer sink state result).1 =
      { state.1 with
        history := state.1.history ++ .offered result ::
          (sink.receive state.2 result).2.notices.map .noticed } := by
  unfold offer
  dsimp only
  cases (sink.receive state.2 result).2 <;> simp [Reception.notices, note, record]

/-- What a session and its sink are after some results have been offered. -/
theorem foldl_offer_eq (sink : Sink σ ρ) (results : List ρ) (state : Session w ρ × σ) :
    results.foldl (offer sink) state =
      ({ state.1 with history := state.1.history ++ sink.transcript state.2 results },
        sink.after state.2 results) := by
  induction results generalizing state with
  | nil =>
    show state = ({ state.1 with history := state.1.history ++ [] }, state.2)
    rw [List.append_nil]
  | cons r rest ih =>
    rw [List.foldl_cons, ih, offer_eq]
    exact congrArg (fun h => ({ state.1 with history := h }, _)) (List.append_assoc ..)

/-- The end of a task is told before its results are offered. -/
theorem complete_eq (sink : Sink σ ρ) (state : Session w ρ × σ) (t : Ticket w ρ)
    (outcome : Outcome ρ) :
    complete sink state t outcome =
      ({ state.1.finish t outcome with
          history := (state.1.finish t outcome).history ++
            sink.transcript state.2 (outcome.toOption.getD []) },
        sink.after state.2 (outcome.toOption.getD [])) :=
  foldl_offer_eq sink _ (state.1.finish t outcome, state.2)

theorem history_offers (sink : Sink σ ρ) (results : List ρ) (state : Session w ρ × σ) :
    state.1.history <+: (results.foldl (offer sink) state).1.history := by
  rw [foldl_offer_eq]
  exact List.prefix_append _ _

theorem history_complete (sink : Sink σ ρ) (state : Session w ρ × σ) (t : Ticket w ρ)
    (outcome : Outcome ρ) : state.1.history <+: (complete sink state t outcome).1.history :=
  (state.1.history_finish t outcome).trans
    (history_offers sink _ (state.1.finish t outcome, state.2))

end Session

end AnalysisScheduler
