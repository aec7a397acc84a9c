import AnalysisScheduler.Proofs.Bear.Deliveries
import AnalysisScheduler.Proofs.Run.Standing

/-!
# What has been delivered to whom

A bear that is still in the run and was not asked yet holds exactly what its dependencies have
brought so far (`Roster.received`), and that is what it is handed when it is asked
(`Session.Stock`). Nothing is held for a bear that was asked or withdrawn.
-/

namespace AnalysisScheduler

variable {w : Workspace} {ρ σ : Type}

/-- What a task has brought to the dependants of its bear. -/
def Ending.results? (e : Ending w ρ) : Option (List ρ) := e.outcome.toOption

namespace Roster

/-- The endings that matter to a bear: those in which a task of a dependency has succeeded, with its
results. -/
def supplies (r : Roster w) (done : List (Ending w ρ)) (b : Bear w) : List (Bear w × List ρ) :=
  (done.filter fun e => r.graph.Edge e.ticket.bear b).filterMap fun e =>
    e.results?.map (e.ticket.bear, ·)

/-- All that the dependencies of a bear have delivered, in the order in which it came. -/
def received (r : Roster w) (done : List (Ending w ρ)) (b : Bear w) : Deliveries w ρ :=
  .ofSupplies (r.supplies done b)

variable {r : Roster w} {done : List (Ending w ρ)}

theorem received_append_of_not_edge {e : Ending w ρ} {b : Bear w}
    (apart : ¬ r.graph.Edge e.ticket.bear b) :
    r.received (done ++ [e]) b = r.received done b := by
  unfold received supplies
  rw [List.filter_append, List.filter_cons_of_neg (by simpa using apart), List.filter_nil,
    List.append_nil]

theorem received_append_ok {t : Ticket w ρ} {results : List ρ} {b : Bear w}
    (edge : r.graph.Edge t.bear b) :
    r.received (done ++ [⟨t, .ok results⟩]) b = (r.received done b).receive t.bear results := by
  unfold received supplies
  rw [List.filter_append, List.filter_cons_of_pos (by simpa using edge), List.filter_nil,
    List.filterMap_append]
  exact Deliveries.ofSupplies_append_singleton ..

theorem received_append_error {t : Ticket w ρ} {failure : TaskFailure} {b : Bear w} :
    r.received (done ++ [⟨t, .error failure⟩]) b = r.received done b := by
  by_cases edge : r.graph.Edge t.bear b
  · unfold received supplies
    rw [List.filter_append, List.filter_cons_of_pos (by simpa using edge), List.filter_nil,
      List.filterMap_append]
    exact congrArg Deliveries.ofSupplies (List.append_nil _)
  · exact received_append_of_not_edge edge

end Roster

namespace Session

/-- What is held for the bears when the tasks of `done` have ended, and what was handed to those
that were asked. -/
structure Stock (r : Roster w) (done : List (Ending w ρ)) (s : Session w ρ) : Prop where
  held : ∀ b, b ∉ s.scheduled → ¬ r.graph.Withdrawn done b → s.delivered b = r.received done b
  kept : ∀ b ∈ s.buffers.keys, b ∈ r.bears ∧ b ∉ s.scheduled ∧ ¬ r.graph.Withdrawn done b
  handed : ∀ b deliveries, .asked b deliveries ∈ s.history → deliveries = r.received done b

variable {r : Roster w} {done : List (Ending w ρ)} {todo fresh : List (Bear w)} {s : Session w ρ}

namespace Stock

/-- Remarks do not touch the stock. -/
theorem of_remarks {s' : Session w ρ} (stock : Stock r done s) (es : List (Event w ρ))
    (remarks : ∀ e ∈ es, e.IsRemark) (buffers : s'.buffers = s.buffers)
    (scheduled : s'.scheduled = s.scheduled) (history : s'.history = s.history ++ es) :
    Stock r done s' := by
  refine { held := fun b => ?_, kept := fun b => ?_, handed := fun b deliveries mem => ?_ }
  · rw [delivered, buffers, scheduled]
    exact stock.held b
  · rw [buffers, scheduled]
    exact stock.kept b
  · rw [history] at mem
    refine stock.handed b deliveries ((List.mem_append.1 mem).resolve_right fun mem => ?_)
    exact remarks _ mem

theorem ask (standing : Standing r done todo fresh s) {b : Bear w} (mem : b ∈ fresh)
    (stock : Stock r done s) : Stock r done (s.ask b).1 := by
  have new := standing.new b mem
  obtain ⟨_, kept, _⟩ := standing.ready b (.inr mem)
  rw [ask_of_new new]
  refine { held := fun c other out => ?_, kept := fun c h => ?_
           handed := fun c deliveries h => ?_ }
  · rw [List.mem_append, List.mem_singleton, not_or] at other
    refine Eq.trans ?_ (stock.held c other.1 out)
    unfold delivered
    rw [OrderedMap.get?_erase, if_neg other.2]
  · obtain ⟨other, h⟩ := OrderedMap.mem_keys_erase.1 h
    obtain ⟨here, notScheduled, out⟩ := stock.kept c h
    refine ⟨here, ?_, out⟩
    rw [List.mem_append, List.mem_singleton, not_or]
    exact ⟨notScheduled, other⟩
  · rcases List.mem_append.1 h with old | asked
    · exact stock.handed c deliveries old
    · obtain ⟨rfl, rfl⟩ := mem_interview_asked.1 asked
      exact stock.held c new kept

theorem release (stock : Stock r done s) (b : Bear w) : Stock r done (s.release b) := by
  obtain ⟨es, remarks, released⟩ := release_eq s b
  rw [released]
  exact stock.of_remarks es remarks rfl rfl rfl

/-- The dependencies of a bear that was asked have no task left that could end. -/
theorem not_edge_of_asked (standing : Standing r done [] [] s) {t : Ticket w ρ}
    (flying : t ∈ s.inFlight) {b : Bear w} (asked : b ∈ s.scheduled) :
    ¬ r.graph.Edge t.bear b := fun edge =>
  ((standing.ready b (.inl asked)).2.2 t.bear edge).2.1 t flying rfl

theorem absorb_ok (sound : r.Sound) (standing : Standing r done [] [] s) (books : Ledger done [] s)
    (stock : Stock r done s) {t : Ticket w ρ} (flying : t ∈ s.inFlight) (results : List ρ) :
    Stock r (done ++ [⟨t, .ok results⟩]) ((s.absorb t (.ok results)).retire t) := by
  have unfinished : ¬ s.IsOver [] t.bear := fun isOver => isOver.2.1 t flying rfl
  have withdrawn : ∀ b, r.graph.Withdrawn (done ++ [⟨t, .ok results⟩]) b ↔
      r.graph.Withdrawn done b := fun _ => WaitGraph.withdrawn_append_ok
  refine { held := fun b notScheduled out => ?_, kept := fun b h => ?_
           handed := fun b deliveries h => ?_ }
  · rw [withdrawn] at out
    have edge : s.graph.Edge t.bear b ↔ r.graph.Edge t.bear b :=
      (standing.edges t.bear b).trans ⟨fun h => h.1, fun edge => ⟨edge, unfinished, out⟩⟩
    have held := stock.held b notScheduled out
    refine (delivered_deliver s t.bear results b).trans ?_
    split
    · rename_i waits
      rw [Roster.received_append_ok (edge.1 waits), held]
    · rename_i free
      rw [Roster.received_append_of_not_edge (mt edge.2 free), held]
  · rw [withdrawn]
    rcases (mem_keys_deliver s t.bear results b).1 h with h | waits
    · exact stock.kept b h
    · obtain ⟨edge, _, out⟩ := (standing.edges t.bear b).1 waits
      exact ⟨((sound.edge_iff t.bear b).1 edge).2.1,
        fun asked => standing.not_edge_of_scheduled asked waits, out⟩
  · have asked : b ∈ s.scheduled := books.asked ▸ History.mem_asked_iff.2 ⟨deliveries, h⟩
    rw [Roster.received_append_of_not_edge (not_edge_of_asked standing flying asked)]
    exact stock.handed b deliveries h

theorem absorb_error (sound : r.Sound) (standing : Standing r done [] [] s)
    (stock : Stock r done s) {t : Ticket w ρ} (flying : t ∈ s.inFlight)
    (failure : TaskFailure) :
    Stock r (done ++ [⟨t, .error failure⟩]) ((s.absorb t (.error failure)).retire t) := by
  obtain ⟨bs, graph, buffers, eq, _, gone, left⟩ := withdrawDependants_eq
    (s := s.note (.taskFailed t.bear failure)) (standing.acyclic sound) t.bear
  rw [Session.absorb, eq]
  have withdrawn : ∀ b, r.graph.Withdrawn (done ++ [⟨t, .error failure⟩]) b ↔
      r.graph.Withdrawn done b ∨ Relation.TransGen r.graph.Edge t.bear b := fun _ =>
    WaitGraph.withdrawn_append_error
  refine { held := fun b notScheduled out => ?_, kept := fun b h => ?_
           handed := fun b deliveries h => ?_ }
  · rw [withdrawn, not_or] at out
    rw [Roster.received_append_error, ← stock.held b notScheduled out.1]
    exact congrArg (·.getD .empty) (left b fun path => out.2 (standing.path_roster path))
  · by_cases path : Relation.TransGen s.graph.Edge t.bear b
    · exact absurd h (OrderedMap.get?_eq_none_iff.1 (gone b path))
    · obtain ⟨v, found⟩ := OrderedMap.mem_keys_iff.1 h
      have old : b ∈ s.buffers.keys := OrderedMap.mem_keys_iff.2 ⟨v, (left b path).symm.trans found⟩
      obtain ⟨here, notScheduled, out⟩ := stock.kept b old
      refine ⟨here, notScheduled, ?_⟩
      rw [withdrawn, not_or]
      exact ⟨out, fun way => (standing.withdrawn_or_path flying way).elim out path⟩
  · rw [Roster.received_append_error]
    refine stock.handed b deliveries ?_
    have mem : .asked b deliveries ∈ (s.history ++ [.noticed (.taskFailed t.bear failure)]) ++
      bs.map fun b => .noticed (.withdrawn b t.bear) := h
    simpa using mem

theorem ofRoster {supplied : List (Bear w)} {said : List (Notice w)} :
    Stock r [] (Session.ofRoster supplied r said : Session w ρ) where
  held _ _ _ := rfl
  kept _ h := absurd h List.not_mem_nil
  handed b deliveries h := by
    obtain ⟨n, _, noticed⟩ := List.mem_map.1 h
    cases noticed

theorem offer (sink : Sink σ ρ) {taken : σ} (stock : Stock r done s) (result : ρ) :
    Stock r done (Session.offer sink (s, taken) result).1 := by
  rw [offer_eq]
  exact stock.of_remarks _ (fun _ => Event.isRemark_of_offer) rfl rfl rfl

end Stock

end Session

end AnalysisScheduler
