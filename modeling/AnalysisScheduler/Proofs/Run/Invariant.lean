import AnalysisScheduler.Proofs.Run.Stock

/-!
# The invariant of a run

The books, the standing of the bears and the stock hold together in every state of every run
(`Session.Run.invariant`): asking, resolving, ending a task and offering its results all keep them.
-/

namespace AnalysisScheduler

variable {w : Workspace} {ρ σ : Type}

namespace Session

/-- What holds of a session when the tasks of `done` have ended, the bears of `todo` are still to be
resolved and the bears of `fresh` are still to be asked. -/
structure Invariant (r : Roster w) (done : List (Ending w ρ)) (todo fresh : List (Bear w))
    (s : Session w ρ) : Prop where
  books : Ledger done todo s
  standing : Standing r done todo fresh s
  stock : Stock r done s

variable {r : Roster w} {done : List (Ending w ρ)} {todo fresh : List (Bear w)} {s : Session w ρ}

namespace Invariant

/-- Tasks are submitted for bears of the roster only. -/
theorem mem_bears (inv : Invariant r done todo fresh s) {t : Ticket w ρ}
    (submitted : t ∈ History.submitted s.history) : t.bear ∈ r.bears :=
  (inv.standing.ready t.bear (.inl (inv.books.owner t submitted))).1

theorem perm (inv : Invariant r done todo fresh s) {todo' : List (Bear w)}
    (same : todo.Perm todo') : Invariant r done todo' fresh s where
  books := inv.books.mono fun _ mem => same.mem_iff.1 mem
  standing := inv.standing.perm same
  stock := inv.stock

theorem ask {b : Bear w} {rest : List (Bear w)} (inv : Invariant r done todo (b :: rest) s) :
    Invariant r done ((s.ask b).2 ++ todo) rest (s.ask b).1 where
  books := inv.books.ask (inv.standing.new b List.mem_cons_self)
  standing := inv.standing.ask
  stock := inv.stock.ask inv.standing List.mem_cons_self

theorem askAll (inv : Invariant r done todo fresh s) :
    Invariant r done ((s.askAll fresh).2 ++ todo) [] (s.askAll fresh).1 := by
  induction fresh generalizing s todo with
  | nil => exact inv
  | cons b rest ih =>
    refine (ih inv.ask).perm ?_
    show (((s.ask b).1.askAll rest).2 ++ ((s.ask b).2 ++ todo)).Perm
      ((s.ask b).2 ++ ((s.ask b).1.askAll rest).2 ++ todo)
    rw [← List.append_assoc]
    exact List.perm_append_comm.append_right _

theorem release (sound : r.Sound) {b : Bear w} {rest : List (Bear w)}
    (inv : Invariant r done (b :: rest) [] s) (idle : s.isBusy b = false) :
    Invariant r done rest (s.graph.freedBy b) (s.release b) where
  books := inv.books.release idle
  standing := inv.standing.release sound fun t mem mine =>
    Bool.eq_false_iff.1 idle (inv.books.isBusy_iff.2 ⟨t, mem, mine⟩)
  stock := inv.stock.release b

theorem pass {b : Bear w} {rest : List (Bear w)} (inv : Invariant r done (b :: rest) [] s)
    (busy : s.isBusy b = true) : Invariant r done rest [] s where
  books := inv.books.pass busy
  standing := inv.standing.pass (inv.books.isBusy_iff.1 busy)
  stock := inv.stock

theorem settle (sound : r.Sound) (inv : Invariant r done todo [] s) :
    Invariant r done [] [] (s.settle todo) := by
  refine settle_induction (P := fun s todo => Invariant r done todo [] s) ?_ ?_ inv
  · exact fun s b rest busy inv => inv.pass busy
  · exact fun s b rest idle inv => (inv.release sound idle).askAll

theorem absorb (sound : r.Sound) (inv : Invariant r done [] [] s) {t : Ticket w ρ}
    (flying : t ∈ s.inFlight) (outcome : Outcome ρ) :
    Invariant r (done ++ [⟨t, outcome⟩]) [t.bear] [] ((s.absorb t outcome).retire t) := by
  refine ⟨inv.books.absorb (inv.standing.acyclic sound) flying outcome, ?_, ?_⟩
  · cases outcome with
    | ok results => exact inv.standing.absorb_ok inv.books flying results
    | error failure => exact inv.standing.absorb_error sound inv.books flying failure
  · cases outcome with
    | ok results => exact inv.stock.absorb_ok sound inv.standing inv.books flying results
    | error failure => exact inv.stock.absorb_error sound inv.standing flying failure

theorem finish (sound : r.Sound) (inv : Invariant r done [] [] s) {t : Ticket w ρ}
    (flying : t ∈ s.inFlight) (outcome : Outcome ρ) :
    Invariant r (done ++ [⟨t, outcome⟩]) [] [] (s.finish t outcome) :=
  (inv.absorb sound flying outcome).settle sound

theorem offers (sink : Sink σ ρ) (results : List ρ) {state : Session w ρ × σ}
    (inv : Invariant r done todo fresh state.1) :
    Invariant r done todo fresh (results.foldl (offer sink) state).1 := by
  induction results generalizing state with
  | nil => exact inv
  | cons result rest ih =>
    exact ih ⟨inv.books.offer sink result, inv.standing.offer sink result,
      inv.stock.offer sink result⟩

theorem complete (sound : r.Sound) (sink : Sink σ ρ) {state : Session w ρ × σ}
    (inv : Invariant r done [] [] state.1) {t : Ticket w ρ} (flying : t ∈ state.1.inFlight)
    (outcome : Outcome ρ) :
    Invariant r (done ++ [⟨t, outcome⟩]) [] [] (Session.complete sink state t outcome).1 :=
  (inv.finish sound flying outcome).offers sink _

theorem ofRoster (sound : r.Sound) {supplied : List (Bear w)} {said : List (Notice w)}
    (debug : ∀ n ∈ said, n.level = .debug) :
    Invariant r [] [] r.entryPoints (Session.ofRoster supplied r said : Session w ρ) where
  books := .ofRoster debug
  standing := .ofRoster sound
  stock := .ofRoster

theorem launch (sound : r.Sound) {supplied : List (Bear w)} {said : List (Notice w)}
    (debug : ∀ n ∈ said, n.level = .debug) :
    Invariant r [] [] [] (Session.ofRoster supplied r said : Session w ρ).launch := by
  have start : Invariant r [] [] r.entryPoints (Session.ofRoster supplied r said : Session w ρ) :=
    .ofRoster sound debug
  have asked := start.askAll
  rw [List.append_nil] at asked
  exact asked.settle sound

end Invariant

variable {sink : Sink σ ρ} {taken : σ} {log : List (Moment w ρ)} {now : Session w ρ × σ}

/-- In every state of every run of a session that was built, the invariant holds. -/
theorem Run.invariant {nextId : Nat} {supplied : List (Bear w)}
    (built : (Session.start nextId supplied).2 = .ok s) (run : Run sink s taken log now) :
    Invariant s.roster (Log.endings log) [] [] now.1 := by
  obtain ⟨r, said, rfl, sound, debug⟩ := exists_roster_of_start built
  induction run with
  | launched =>
    rw [Log.endings_events]
    exact .launch sound debug
  | ended run flying outcome ih =>
    rw [endings_ended]
    exact ih.complete sound sink flying outcome

end Session

end AnalysisScheduler
