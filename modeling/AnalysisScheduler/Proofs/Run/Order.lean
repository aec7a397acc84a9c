import AnalysisScheduler.Proofs.Roster.Assembly
import AnalysisScheduler.Proofs.Run.CleanEnd
import AnalysisScheduler.Proofs.Run.Deeds
import AnalysisScheduler.Proofs.Run.Snapshot
import Mathlib.Data.List.Perm.Basic

/-!
# The order of the tasks does not matter

Tasks may end in any order. When what a task ends with depends only on its bear, its input and what
has been delivered to the bear, and on the deliveries only up to order (`Deliveries.Similar`), then
all complete runs of a session agree: the same bears are asked, with the same tasks, which fail
equally often and bring the same results (`runs_agree`).

What the tasks of a bear were about and what they ended with is its account (`accounts`). The
dependencies of a bear have the same account in both runs, up to order, and so has the bear itself
(`Session.Invariant.agree`): the waiting is founded, and a bear is asked exactly if all that it
waits on was asked and did not fail.
-/

namespace AnalysisScheduler

variable {w : Workspace} {ρ σ σ' : Type}

namespace Deliveries

/-- The same bears have delivered the same results, in whatever order. -/
def Similar (d d' : Deliveries w ρ) : Prop :=
  ∀ k, Option.Rel (fun a b => a.source = b.source ∧ a.results.Perm b.results) (d.get? k) (d'.get? k)

theorem Similar.perm_items {d d' : Deliveries w ρ} (similar : d.Similar d') :
    d.items.Perm d'.items := by
  have same : d.byKind.keys.Perm d'.byKind.keys := by
    refine (List.perm_ext_iff_of_nodup d.byKind.nodup_keys d'.byKind.nodup_keys).2 fun k => ?_
    rw [← not_iff_not, ← OrderedMap.get?_eq_none_iff, ← OrderedMap.get?_eq_none_iff]
    have rel := similar k
    unfold get? at rel
    generalize d.byKind.get? k = a, d'.byKind.get? k = b at rel
    cases rel with
    | some => simp
    | none => rfl
  rw [items_eq_flatMap_keys, items_eq_flatMap_keys]
  refine same.flatMap fun k _ => ?_
  have rel := similar k
  generalize d.get? k = a, d'.get? k = b at rel
  cases rel with
  | some rel =>
    simp only [Option.toList_some, List.flatMap_singleton, rel.1]
    exact rel.2.map _
  | none => exact .refl _

end Deliveries

theorem TaskInput.perm_all {d d' : Deliveries w ρ} (similar : d.Similar d') (shape : Shape)
    (corpus : Corpus) : (all shape corpus d).Perm (all shape corpus d') := by
  cases shape with
  | corpus => exact .refl _
  | file => exact .refl _
  | delivery => exact similar.perm_items.map _

/-- What the tasks of a bear were about and what they ended with. -/
def accounts (done : List (Ending w ρ)) (b : Bear w) : List (TaskInput w ρ × Outcome ρ) :=
  (done.filter (·.ticket.bear = b)).map fun e => (e.ticket.task.input, e.outcome)

/-- What tasks end with is given by their bear, their input and what the bear has received. -/
def Follows (perform : Bear w → TaskInput w ρ → Deliveries w ρ → Outcome ρ)
    (done : List (Ending w ρ)) : Prop :=
  ∀ e ∈ done, e.outcome = perform e.ticket.bear e.ticket.task.input e.ticket.task.deliveries

theorem flatMap_accounts (done : List (Ending w ρ)) (b : Bear w) :
    ((done.filter (·.ticket.bear = b)).flatMap fun e => e.results?.getD []) =
      (accounts done b).flatMap fun a => a.2.toOption.getD [] := by
  rw [accounts, List.flatMap_map]
  rfl

theorem accounts_eq_nil_iff {done : List (Ending w ρ)} {b : Bear w} :
    accounts done b = [] ↔ done.filter (·.ticket.bear = b) = [] := List.map_eq_nil_iff

namespace Session.Invariant

variable {r : Roster w} {done done' : List (Ending w ρ)} {s s' : Session w ρ} {b : Bear w}

/-! ## One run -/

/-- At the end, exactly those bears were asked whose direct dependencies were asked and have not
failed. -/
theorem scheduled_iff (sound : r.Sound) (inv : Invariant r done [] [] s)
    (landed : s.inFlight = []) :
    b ∈ s.scheduled ↔ b ∈ r.bears ∧ ∀ u, r.graph.Edge u b →
      u ∈ s.scheduled ∧ ∀ a ∈ accounts done u, ∃ results, a.2 = .ok results := by
  constructor
  · intro asked
    obtain ⟨here, kept, before⟩ := inv.standing.ready b (.inl asked)
    refine ⟨here, fun u edge => ⟨(before u edge).1, fun a mem => ?_⟩⟩
    obtain ⟨e, ended, rfl⟩ := List.mem_map.1 mem
    obtain ⟨ended, mine⟩ := List.mem_filter.1 ended
    cases outcome : e.outcome with
    | ok results => exact ⟨results, rfl⟩
    | error failure =>
      exact absurd ⟨e, ended, ⟨failure, outcome⟩, of_decide_eq_true mine ▸ .single edge⟩ kept
  · rintro ⟨here, ready⟩
    refine (inv.scheduled_or_withdrawn sound landed here).resolve_right ?_
    rintro ⟨e, ended, ⟨failure, failed⟩, path⟩
    -- The failed bear is the last dependency on the way, or that one was withdrawn with `b`.
    obtain ⟨u, way, edge⟩ := Relation.TransGen.tail'_iff.1 path
    obtain ⟨asked, succeeded⟩ := ready u edge
    rcases Relation.reflTransGen_iff_eq_or_transGen.1 way with rfl | path
    · have mem : (e.ticket.task.input, e.outcome) ∈ accounts done e.ticket.bear :=
        List.mem_map_of_mem (f := fun e : Ending w ρ => (e.ticket.task.input, e.outcome))
          (List.mem_filter.2 ⟨ended, decide_eq_true rfl⟩)
      obtain ⟨results, ok⟩ := succeeded _ mem
      rw [failed] at ok
      cases ok
    · exact (inv.standing.ready u (.inl asked)).2.1 ⟨e, ended, ⟨failure, failed⟩, path⟩

theorem submitted_perm (inv : Invariant r done [] [] s) (landed : s.inFlight = []) (b : Bear w) :
    ((History.submitted s.history).filter (·.bear = b)).Perm
      ((done.filter (·.ticket.bear = b)).map Ending.ticket) := by
  have all := inv.books.submitted
  rw [landed, List.append_nil] at all
  have mine := all.filter (·.bear = b)
  rwa [List.filter_map] at mine

theorem accounts_of_not_scheduled (inv : Invariant r done [] [] s) (notAsked : b ∉ s.scheduled) :
    accounts done b = [] := by
  rw [accounts_eq_nil_iff, List.filter_eq_nil_iff]
  intro e ended mine
  have submitted : e.ticket ∈ History.submitted s.history :=
    inv.books.submitted.mem_iff.2 (List.mem_append_left _ (List.mem_map_of_mem ended))
  exact notAsked (of_decide_eq_true mine ▸ inv.books.owner e.ticket submitted)

/-- The account of a bear that was asked is settled by what it was handed. -/
theorem accounts_perm (inv : Invariant r done [] [] s) (landed : s.inFlight = [])
    {perform : Bear w → TaskInput w ρ → Deliveries w ρ → Outcome ρ} (follows : Follows perform done)
    {deliveries : Deliveries w ρ} (asked : .asked b deliveries ∈ s.history) :
    (accounts done b).Perm ((TaskInput.all b.kind.shape b.corpus deliveries).map fun input =>
      (input, perform b input deliveries)) := by
  have tasks : ((done.filter (·.ticket.bear = b)).map (·.ticket.task)).Perm
      (b.tasks deliveries) := by
    rw [← inv.books.tasks b deliveries asked]
    have perm := (inv.submitted_perm landed b).symm.map Ticket.task
    rwa [List.map_map] at perm
  have account : accounts done b = ((done.filter (·.ticket.bear = b)).map (·.ticket.task)).map
      fun task => (task.input, perform b task.input task.deliveries) := by
    rw [accounts, List.map_map]
    refine List.map_congr_left fun e mem => ?_
    obtain ⟨ended, mine⟩ := List.mem_filter.1 mem
    have outcome := follows e ended
    rw [of_decide_eq_true mine] at outcome
    exact congrArg _ outcome
  rw [account]
  refine (tasks.map _).trans (.of_eq ?_)
  unfold Bear.tasks
  rw [List.map_map]
  rfl

/-! ## Two runs -/

theorem similar_received (sound : r.Sound) (inv : Invariant r done [] [] s)
    (inv' : Invariant r done' [] [] s') (asked : b ∈ s.scheduled) (asked' : b ∈ s'.scheduled)
    (agree : ∀ u, r.graph.Edge u b → (accounts done u).Perm (accounts done' u)) :
    (r.received done b).Similar (r.received done' b) := by
  have succeeded {done : List (Ending w ρ)} {s : Session w ρ} (inv : Invariant r done [] [] s)
      (asked : b ∈ s.scheduled) : ∀ e ∈ done, r.graph.Edge e.ticket.bear b →
        ∃ results, e.outcome = .ok results := by
    intro e ended edge
    cases outcome : e.outcome with
    | ok results => exact ⟨results, rfl⟩
    | error failure =>
      have kept := (inv.standing.ready b (.inl asked)).2.1
      exact absurd ⟨e, ended, ⟨failure, outcome⟩, .single edge⟩ kept
  have here := (inv.standing.ready b (.inl asked)).1
  intro k
  by_cases needed : k ∈ w.dependenciesOf b.kindId
  · obtain ⟨u, there, site, rfl⟩ := sound.provided b here k needed
    have edge := (sound.edge_iff u b).2 ⟨there, here, site, needed⟩
    rw [sound.get?_received edge (succeeded inv asked),
      sound.get?_received edge (succeeded inv' asked'), flatMap_accounts, flatMap_accounts]
    simp only [← accounts_eq_nil_iff]
    have same := agree u edge
    by_cases idle : accounts done u = []
    · rw [if_pos idle, if_pos (by rwa [idle, List.nil_perm] at same)]
      exact .none
    · rw [if_neg idle, if_neg fun none => idle (by rwa [none, List.perm_nil] at same)]
      exact .some ⟨rfl, same.flatMap_right _⟩
  · rw [sound.get?_received_of_not_mem needed, sound.get?_received_of_not_mem needed]
    exact .none

/-- At the end of two runs in which tasks end with what `perform` says, the same bears were asked,
and their accounts are the same up to order. -/
theorem agree (sound : r.Sound) (inv : Invariant r done [] [] s) (landed : s.inFlight = [])
    (inv' : Invariant r done' [] [] s') (landed' : s'.inFlight = [])
    {perform : Bear w → TaskInput w ρ → Deliveries w ρ → Outcome ρ}
    (respects : ∀ b input d d', d.Similar d' → perform b input d = perform b input d')
    (follows : Follows perform done) (follows' : Follows perform done') (b : Bear w) :
    (b ∈ s.scheduled ↔ b ∈ s'.scheduled) ∧ (accounts done b).Perm (accounts done' b) := by
  induction b using sound.founded.induction with
  | _ b ih =>
    have same : b ∈ s.scheduled ↔ b ∈ s'.scheduled := by
      rw [inv.scheduled_iff sound landed, inv'.scheduled_iff sound landed']
      refine and_congr_right fun _ => forall₂_congr fun u edge => ?_
      obtain ⟨scheduled, accounts⟩ := ih u edge
      exact and_congr scheduled (forall_congr' fun a => imp_congr_left accounts.mem_iff)
    refine ⟨same, ?_⟩
    -- A bear that was asked makes similar tasks in both runs; any other has no account.
    by_cases asked : b ∈ s.scheduled
    · have similar := similar_received sound inv inv' asked (same.1 asked) fun u edge =>
        (ih u edge).2
      have handed {done : List (Ending w ρ)} {s : Session w ρ} (inv : Invariant r done [] [] s)
          (asked : b ∈ s.scheduled) : .asked b (r.received done b) ∈ s.history := by
        obtain ⟨deliveries, mem⟩ := History.mem_asked_iff.1 (inv.books.asked.symm ▸ asked)
        exact inv.stock.handed b deliveries mem ▸ mem
      refine (inv.accounts_perm landed follows (handed inv asked)).trans
        (.trans ?_ (inv'.accounts_perm landed' follows' (handed inv' (same.1 asked))).symm)
      rw [List.map_congr_left fun input _ => congrArg _ (respects b input _ _ similar)]
      exact (TaskInput.perm_all similar _ _).map _
    · rw [inv.accounts_of_not_scheduled asked,
        inv'.accounts_of_not_scheduled (mt same.2 asked)]

end Session.Invariant

/-! ## All complete runs agree -/

theorem countP_accounts (done : List (Ending w ρ)) (b : Bear w) :
    (done.filter (·.ticket.bear = b)).countP (fun e => !e.outcome.isOk) =
      (accounts done b).countP fun a => !a.2.isOk := by
  rw [accounts, List.countP_map]
  rfl

/-- What a bear offers to the sink is what its tasks have brought. -/
theorem Session.Run.offers_perm {s : Session w ρ} {sink : Sink σ ρ} {taken : σ}
    {log : List (Moment w ρ)} {now : Session w ρ × σ} (run : Session.Run sink s taken log now)
    (b : Bear w) :
    ((Log.offers log).filter (·.1 = b)).map Prod.snd =
      (accounts (Log.endings log) b).flatMap fun a => a.2.toOption.getD [] :=
  (run.offers_of_bear b).trans (flatMap_accounts (Log.endings log) b)

/-- When what tasks end with is given by their bear, their input and what was delivered, up to the
order of the deliveries, all complete runs of a session agree, whatever the order in which tasks
end: they ask the same bears, and for each bear the inputs of its tasks are the same, as many of
them fail, and it offers the same results. -/
theorem runs_agree {nextId : Nat} {supplied : List (Bear w)} {s : Session w ρ} {sink : Sink σ ρ}
    {sink' : Sink σ' ρ} {taken : σ} {taken' : σ'} {log log' : List (Moment w ρ)}
    {now : Session w ρ × σ} {now' : Session w ρ × σ'}
    {perform : Bear w → TaskInput w ρ → Deliveries w ρ → Outcome ρ}
    (built : (Session.start nextId supplied).2 = .ok s)
    (respects : ∀ b input d d', d.Similar d' → perform b input d = perform b input d')
    (run : Session.Run sink s taken log now) (landed : now.1.inFlight = [])
    (follows : Follows perform (Log.endings log))
    (run' : Session.Run sink' s taken' log' now') (landed' : now'.1.inFlight = [])
    (follows' : Follows perform (Log.endings log')) :
    (History.asked (Log.history log)).Perm (History.asked (Log.history log')) ∧
      ∀ b,
        (((History.submitted (Log.history log)).filter (·.bear = b)).map (·.task.input)).Perm
          (((History.submitted (Log.history log')).filter (·.bear = b)).map (·.task.input)) ∧
        ((Log.endings log).filter (·.ticket.bear = b)).countP (fun e => !e.outcome.isOk) =
          ((Log.endings log').filter (·.ticket.bear = b)).countP (fun e => !e.outcome.isOk) ∧
        (((Log.offers log).filter (·.1 = b)).map Prod.snd).Perm
          (((Log.offers log').filter (·.1 = b)).map Prod.snd) := by
  obtain ⟨sound, _⟩ := Session.sound_of_start built
  have inv := run.invariant built
  have inv' := run'.invariant built
  have agree := inv.agree sound landed inv' landed' respects follows follows'
  have inputs {done : List (Ending w ρ)} {s : Session w ρ} {r : Roster w}
      (inv : Session.Invariant r done [] [] s) (landed : s.inFlight = []) (b : Bear w) :
      (((History.submitted s.history).filter (·.bear = b)).map (·.task.input)).Perm
        ((accounts done b).map Prod.fst) := by
    have perm := (inv.submitted_perm landed b).map (·.task.input)
    rw [List.map_map] at perm
    rw [accounts, List.map_map]
    exact perm
  rw [run.history_log, run'.history_log, inv.books.asked, inv'.books.asked]
  refine ⟨?_, fun b => ?_⟩
  · exact (List.perm_ext_iff_of_nodup inv.books.nodup inv'.books.nodup).2 fun b => (agree b).1
  · have same := (agree b).2
    refine ⟨?_, ?_, ?_⟩
    · exact (inputs inv landed b).trans ((same.map _).trans (inputs inv' landed' b).symm)
    · rw [countP_accounts, countP_accounts, same.countP_eq]
    · rw [run.offers_perm, run'.offers_perm]
      exact same.flatMap_right _

/-! ## Two orders of one session -/

namespace Twins

def session : Session workspace Nat :=
  .ofRoster supplied roster (Roster.assemble 4 supplied).1

theorem started : (Session.start 4 supplied).2 = .ok session := by
  unfold Session.start
  rw [built]
  rfl

/-- At the second site one of the two bears that look for faults fails. Reports bring how much there
was to report. -/
def perform (b : Bear workspace) (_ : TaskInput workspace Nat)
    (deliveries : Deliveries workspace Nat) : Outcome Nat :=
  match b.kind.shape with
  | .delivery => .ok [deliveries.total]
  | _ => if b.site = second ∧ b.kindId.val = 1 then .error (.panicked b.name) else .ok [b.id]

theorem perform_similar (b : Bear workspace) (input : TaskInput workspace Nat)
    (d d' : Deliveries workspace Nat) (similar : d.Similar d') :
    perform b input d = perform b input d' := by
  have total : d.total = d'.total := similar.perm_items.length_eq
  unfold perform
  rw [total]

/-- The sink counts what it is offered. -/
def sink : Sink Nat Nat := ⟨fun count _ => (count + 1, .accepted)⟩

/-- Ends the task that is in flight at place `i`. -/
def next (state : List (Moment workspace Nat) × Session workspace Nat × Nat) (i : Nat) :
    List (Moment workspace Nat) × Session workspace Nat × Nat :=
  match state.2.1.inFlight[i]? with
  | none => state
  | some t =>
    let outcome := perform t.bear t.task.input t.task.deliveries
    let now := Session.complete sink state.2 t outcome
    (state.1 ++ .ended ⟨t, outcome⟩ :: (now.1.since state.2.1).map .event, now)

/-- Ends tasks by their places among those in flight, one after another. -/
def play (places : List Nat) : List (Moment workspace Nat) × Session workspace Nat × Nat :=
  places.foldl next (session.launch.history.map .event, session.launch, 0)

theorem run_play (places : List Nat) :
    Session.Run sink session 0 (play places).1 (play places).2 ∧
      Follows perform (Log.endings (play places).1) := by
  have foldl (state : List (Moment workspace Nat) × Session workspace Nat × Nat)
      (run : Session.Run sink session 0 state.1 state.2)
      (follows : Follows perform (Log.endings state.1)) :
      Session.Run sink session 0 (places.foldl next state).1 (places.foldl next state).2 ∧
        Follows perform (Log.endings (places.foldl next state).1) := by
    induction places generalizing state with
    | nil => exact ⟨run, follows⟩
    | cons i rest ih =>
      have step : Session.Run sink session 0 (next state i).1 (next state i).2 ∧
          Follows perform (Log.endings (next state i).1) := by
        unfold next
        split
        · exact ⟨run, follows⟩
        · rename_i t found
          refine ⟨.ended run (List.mem_of_getElem? found) _, ?_⟩
          rw [Session.Run.endings_ended]
          intro e mem
          rcases List.mem_append.1 mem with old | new
          · exact follows e old
          · rw [List.mem_singleton.1 new]
      exact ih _ step.1 step.2
  refine foldl _ .launched ?_
  rw [Log.endings_events]
  exact fun _ mem => absurd mem List.not_mem_nil

end Twins

/-- Once the tasks end in the order of their submission, once the last one in flight ends first. -/
theorem runs_agree_twins :
    (Log.endings (Twins.play [0, 0, 0, 0, 0, 0]).1).map (·.ticket.id) = [0, 1, 2, 3, 4, 5] ∧
      (Log.endings (Twins.play [3, 2, 1, 0, 1, 0]).1).map (·.ticket.id) = [3, 2, 1, 0, 5, 4] ∧
      (History.asked (Log.history (Twins.play [0, 0, 0, 0, 0, 0]).1)).Perm
        (History.asked (Log.history (Twins.play [3, 2, 1, 0, 1, 0]).1)) ∧
      ∀ b, (((Log.offers (Twins.play [0, 0, 0, 0, 0, 0]).1).filter (·.1 = b)).map Prod.snd).Perm
        (((Log.offers (Twins.play [3, 2, 1, 0, 1, 0]).1).filter (·.1 = b)).map Prod.snd) := by
  obtain ⟨run, follows⟩ := Twins.run_play [0, 0, 0, 0, 0, 0]
  obtain ⟨run', follows'⟩ := Twins.run_play [3, 2, 1, 0, 1, 0]
  obtain ⟨asked, agree⟩ := runs_agree Twins.started Twins.perform_similar run
    (List.isEmpty_iff.1 (by decide +kernel)) follows run'
    (List.isEmpty_iff.1 (by decide +kernel)) follows'
  exact ⟨by decide +kernel, by decide +kernel, asked, fun b => (agree b).2.2⟩

end AnalysisScheduler
