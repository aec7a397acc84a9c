import AnalysisScheduler.Proofs.Run.Ledger

/-!
# Where each bear stands

A bear is over when it was asked and has nothing more to do, and it is withdrawn when a task of a
bear has failed on which it depends. `Standing` ties the edges that are left in a session to those
of its roster: an edge goes when its dependency is over or when its dependant is withdrawn, and at
no other time. From this follows that a bear is scheduled only when all its dependencies are over,
and that every other bear still has somebody to wait on.

A failed bear takes those out of the run that it leads to in the edges that are left. They are all
that it leads to in the roster, apart from those that were withdrawn before
(`Standing.withdrawn_or_path`).
-/

namespace AnalysisScheduler

variable {w : Workspace} {ρ σ : Type}

def Ending.IsFailure (e : Ending w ρ) : Prop := ∃ failure, e.outcome = .error failure

namespace WaitGraph

/-- Some task of a bear has failed on which this bear depends, directly or through others. -/
def Withdrawn (g : WaitGraph (Bear w)) (done : List (Ending w ρ)) (b : Bear w) : Prop :=
  ∃ e ∈ done, e.IsFailure ∧ Relation.TransGen g.Edge e.ticket.bear b

variable {g : WaitGraph (Bear w)} {done : List (Ending w ρ)}

theorem Withdrawn.edge {a b : Bear w} (out : g.Withdrawn done a) (edge : g.Edge a b) :
    g.Withdrawn done b := by
  obtain ⟨e, mem, failed, path⟩ := out
  exact ⟨e, mem, failed, path.tail edge⟩

theorem not_withdrawn_nil (b : Bear w) : ¬ g.Withdrawn ([] : List (Ending w ρ)) b :=
  fun ⟨_, mem, _⟩ => List.not_mem_nil mem

theorem withdrawn_append_ok {t : Ticket w ρ} {results : List ρ} {b : Bear w} :
    g.Withdrawn (done ++ [⟨t, .ok results⟩]) b ↔ g.Withdrawn done b := by
  constructor
  · rintro ⟨e, mem, ⟨failure, failed⟩, path⟩
    rcases List.mem_append.1 mem with mem | mem
    · exact ⟨e, mem, ⟨failure, failed⟩, path⟩
    · rw [List.mem_singleton.1 mem] at failed
      cases failed
  · rintro ⟨e, mem, failed, path⟩
    exact ⟨e, List.mem_append_left _ mem, failed, path⟩

theorem withdrawn_append_error {t : Ticket w ρ} {failure : TaskFailure} {b : Bear w} :
    g.Withdrawn (done ++ [⟨t, .error failure⟩]) b ↔
      g.Withdrawn done b ∨ Relation.TransGen g.Edge t.bear b := by
  constructor
  · rintro ⟨e, mem, failed, path⟩
    rcases List.mem_append.1 mem with mem | mem
    · exact .inl ⟨e, mem, failed, path⟩
    · rw [List.mem_singleton.1 mem] at path
      exact .inr path
  · rintro (⟨e, mem, failed, path⟩ | path)
    · exact ⟨e, List.mem_append_left _ mem, failed, path⟩
    · exact ⟨_, List.mem_append_right _ (List.mem_singleton_self _), ⟨failure, rfl⟩, path⟩

end WaitGraph

namespace Session

/-- A bear was asked for its tasks, none of them is unfinished, and it does not have to be resolved
any more. -/
def IsOver (s : Session w ρ) (todo : List (Bear w)) (b : Bear w) : Prop :=
  b ∈ s.scheduled ∧ (∀ t ∈ s.inFlight, t.bear ≠ b) ∧ b ∉ todo

/-- Where the bears of a roster stand when the tasks of `done` have ended, the bears of `todo` are
still to be resolved and the bears of `fresh` are still to be asked. -/
structure Standing (r : Roster w) (done : List (Ending w ρ)) (todo fresh : List (Bear w))
    (s : Session w ρ) : Prop where
  edges : ∀ u v, s.graph.Edge u v ↔
    r.graph.Edge u v ∧ ¬ s.IsOver todo u ∧ ¬ r.graph.Withdrawn done v
  ready : ∀ b, b ∈ s.scheduled ∨ b ∈ fresh →
    b ∈ r.bears ∧ ¬ r.graph.Withdrawn done b ∧ ∀ u, r.graph.Edge u b → s.IsOver todo u
  waiting : ∀ b ∈ r.bears, b ∉ s.scheduled → b ∉ fresh → ¬ r.graph.Withdrawn done b →
    ∃ u, s.graph.Edge u b
  /-- No bear is asked before one that it depends on. -/
  ordered : s.scheduled.Pairwise fun a b => ¬ r.graph.Edge b a
  new : ∀ b ∈ fresh, b ∉ s.scheduled
  distinct : fresh.Nodup
  due : ∀ b ∈ todo, b ∈ s.scheduled
  once : todo.Nodup

variable {r : Roster w} {done : List (Ending w ρ)} {todo fresh : List (Bear w)} {s : Session w ρ}

namespace Standing

/-- A bear that is scheduled waits on nobody. -/
theorem not_edge_of_scheduled (standing : Standing r done todo fresh s) {u b : Bear w}
    (scheduled : b ∈ s.scheduled) : ¬ s.graph.Edge u b := by
  intro edge
  obtain ⟨edge, unfinished, _⟩ := (standing.edges u b).1 edge
  exact unfinished ((standing.ready b (.inl scheduled)).2.2 u edge)

theorem not_path_of_scheduled (standing : Standing r done todo fresh s) {u b : Bear w}
    (scheduled : b ∈ s.scheduled) : ¬ Relation.TransGen s.graph.Edge u b := by
  intro path
  obtain ⟨_, _, edge⟩ := Relation.TransGen.tail'_iff.1 path
  exact standing.not_edge_of_scheduled scheduled edge

theorem path_roster (standing : Standing r done todo fresh s) {u b : Bear w}
    (path : Relation.TransGen s.graph.Edge u b) : Relation.TransGen r.graph.Edge u b :=
  Relation.TransGen.mono (fun u b edge => ((standing.edges u b).1 edge).1) _ _ path

theorem acyclic (standing : Standing r done todo fresh s) (sound : r.Sound) : s.graph.Acyclic := by
  refine WaitGraph.acyclic_of_wellFounded (Subrelation.wf ?_ sound.founded)
  exact fun {u v} edge => ((standing.edges u v).1 edge).1

theorem perm (standing : Standing r done todo fresh s) {todo' : List (Bear w)}
    (same : todo.Perm todo') : Standing r done todo' fresh s := by
  have isOver : ∀ u, s.IsOver todo' u ↔ s.IsOver todo u := fun u => by
    unfold IsOver
    rw [same.mem_iff]
  refine { standing with
    edges := fun u v => ?_
    ready := fun b h => ?_
    due := fun b mem => standing.due b (same.mem_iff.2 mem)
    once := same.nodup_iff.1 standing.once }
  · rw [isOver]
    exact standing.edges u v
  · obtain ⟨mem, kept, deps⟩ := standing.ready b h
    exact ⟨mem, kept, fun u edge => (isOver u).2 (deps u edge)⟩

/-! ## Asking -/

/-- Asking a bear makes nobody over: either it has tasks now, or it has to be resolved. -/
theorem isOver_ask (todo : List (Bear w)) {b : Bear w} (new : b ∉ s.scheduled) (u : Bear w) :
    (s.ask b).1.IsOver ((s.ask b).2 ++ todo) u ↔ s.IsOver todo u := by
  rw [ask_of_new new]
  unfold IsOver
  dsimp only
  by_cases same : u = b
  · subst same
    refine iff_of_false (fun isOver => ?_) fun isOver => new isOver.1
    obtain ⟨_, landed, resolved⟩ := isOver
    cases tickets : s.tickets u with
    | nil =>
      rw [if_pos tickets] at resolved
      exact resolved List.mem_cons_self
    | cons t rest =>
      have mem : t ∈ s.tickets u := tickets ▸ List.mem_cons_self
      exact landed t (List.mem_append_right _ mem) (bear_of_mem_tickets mem)
  · have scheduled : u ∈ s.scheduled ++ [b] ↔ u ∈ s.scheduled := by simp [same]
    have resolved : u ∉ (if s.tickets b = [] then [b] else []) ++ todo ↔ u ∉ todo := by
      split <;> simp [same]
    rw [scheduled, resolved]
    refine and_congr_right fun _ => and_congr_left fun _ => ⟨fun landed t mem => ?_, ?_⟩
    · exact landed t (List.mem_append_left _ mem)
    · intro landed t mem
      rcases List.mem_append.1 mem with mem | mem
      · exact landed t mem
      · exact fun mine => same (mine.symm.trans (bear_of_mem_tickets mem))

theorem ask {b : Bear w} {rest : List (Bear w)} (standing : Standing r done todo (b :: rest) s) :
    Standing r done ((s.ask b).2 ++ todo) rest (s.ask b).1 := by
  have new := standing.new b List.mem_cons_self
  have isOver := isOver_ask todo new
  have graph := graph_ask s b
  obtain ⟨notInRest, distinct⟩ := List.nodup_cons.1 standing.distinct
  have scheduled : (s.ask b).1.scheduled = s.scheduled ++ [b] := by rw [ask_of_new new]
  have idle : ∀ u ∈ (s.ask b).2, u = b := by
    rw [ask_of_new new]
    dsimp only
    split <;> simp
  have mem {u : Bear w} : u ∈ (s.ask b).1.scheduled ↔ u ∈ s.scheduled ∨ u = b := by
    rw [scheduled, List.mem_append, List.mem_singleton]
  refine { edges := ?_, ready := ?_, waiting := ?_, ordered := ?_, new := ?_, distinct := distinct,
           due := ?_, once := ?_ }
  · intro u v
    rw [graph, isOver]
    exact standing.edges u v
  · intro c h
    have before : c ∈ s.scheduled ∨ c ∈ b :: rest := by
      rcases h with h | h
      · refine (mem.1 h).imp_right ?_
        rintro rfl
        exact List.mem_cons_self
      · exact .inr (List.mem_cons_of_mem _ h)
    obtain ⟨here, kept, deps⟩ := standing.ready c before
    exact ⟨here, kept, fun u edge => (isOver u).2 (deps u edge)⟩
  · intro c here notScheduled notFresh kept
    rw [mem, not_or] at notScheduled
    rw [graph]
    refine standing.waiting c here notScheduled.1 (fun fresh => ?_) kept
    exact (List.mem_cons.1 fresh).elim notScheduled.2 notFresh
  · rw [scheduled, List.pairwise_append]
    refine ⟨standing.ordered, List.pairwise_singleton _ _, fun a asked b' last edge => ?_⟩
    rw [List.mem_singleton.1 last] at edge
    exact new ((standing.ready a (.inl asked)).2.2 b edge).1
  · intro c fresh
    rw [mem, not_or]
    exact ⟨standing.new c (List.mem_cons_of_mem _ fresh), fun same => notInRest (same ▸ fresh)⟩
  · intro c h
    rw [mem]
    exact (List.mem_append.1 h).symm.imp (standing.due c) (idle c)
  · refine List.nodup_append.2 ⟨?_, standing.once, fun c h c' h' same => ?_⟩
    · rw [ask_of_new new]
      dsimp only
      split <;> simp
    · exact new (idle c h ▸ same ▸ standing.due c' h')

/-! ## Resolving -/

theorem pass {b : Bear w} {rest : List (Bear w)} (standing : Standing r done (b :: rest) [] s)
    (busy : ∃ t ∈ s.inFlight, t.bear = b) : Standing r done rest [] s := by
  have isOver : ∀ u, s.IsOver rest u ↔ s.IsOver (b :: rest) u := by
    intro u
    refine and_congr_right fun _ => and_congr_right fun landed => ?_
    obtain ⟨t, mem, mine⟩ := busy
    have other : u ≠ b := fun same => landed t mem (mine.trans same.symm)
    rw [List.mem_cons, not_or]
    exact (and_iff_right other).symm
  refine { standing with
    edges := fun u v => ?_
    ready := fun c h => ?_
    due := fun c h => standing.due c (List.mem_cons_of_mem _ h)
    once := (List.nodup_cons.1 standing.once).2 }
  · rw [isOver]
    exact standing.edges u v
  · obtain ⟨here, kept, deps⟩ := standing.ready c h
    exact ⟨here, kept, fun u edge => (isOver u).2 (deps u edge)⟩

theorem release (sound : r.Sound) {b : Bear w} {rest : List (Bear w)}
    (standing : Standing r done (b :: rest) [] s) (idle : ∀ t ∈ s.inFlight, t.bear ≠ b) :
    Standing r done rest (s.graph.freedBy b) (s.release b) := by
  have scheduled := standing.due b List.mem_cons_self
  obtain ⟨notInRest, once⟩ := List.nodup_cons.1 standing.once
  have unchanged : (s.release b).scheduled = s.scheduled ∧ (s.release b).inFlight = s.inFlight ∧
      (s.release b).graph = s.graph.resolve b := by
    obtain ⟨es, _, released⟩ := release_eq s b
    rw [released]
    exact ⟨rfl, rfl, rfl⟩
  have isOver : ∀ u, (s.release b).IsOver rest u ↔ s.IsOver (b :: rest) u ∨ u = b := by
    intro u
    unfold IsOver
    rw [unchanged.1, unchanged.2.1, List.mem_cons, not_or]
    constructor
    · rintro ⟨asked, landed, resolved⟩
      by_cases same : u = b
      · exact .inr same
      · exact .inl ⟨asked, landed, same, resolved⟩
    · rintro (⟨asked, landed, _, resolved⟩ | rfl)
      · exact ⟨asked, landed, resolved⟩
      · exact ⟨scheduled, idle, notInRest⟩
  have edges : ∀ u v, (s.release b).graph.Edge u v ↔ s.graph.Edge u v ∧ u ≠ b := by
    intro u v
    rw [unchanged.2.2, WaitGraph.edge_resolve]
    refine and_congr_right fun edge => and_iff_left ?_
    rintro rfl
    exact standing.not_edge_of_scheduled scheduled edge
  refine { edges := ?_, ready := ?_, waiting := ?_, ordered := ?_, new := ?_,
           distinct := s.graph.nodup_freedBy b, due := ?_, once := once }
  · intro u v
    rw [edges, standing.edges, isOver, not_or]
    constructor
    · rintro ⟨⟨edge, unfinished, kept⟩, other⟩
      exact ⟨edge, ⟨unfinished, other⟩, kept⟩
    · rintro ⟨edge, ⟨unfinished, other⟩, kept⟩
      exact ⟨⟨edge, unfinished, kept⟩, other⟩
  · rintro c (asked | freed)
    · rw [unchanged.1] at asked
      obtain ⟨here, kept, deps⟩ := standing.ready c (.inl asked)
      exact ⟨here, kept, fun u edge => (isOver u).2 (.inl (deps u edge))⟩
    · -- All that a freed bear still waited on is the bear that is released.
      obtain ⟨waits, _, only⟩ := WaitGraph.mem_freedBy.1 freed
      obtain ⟨edge, _, kept⟩ := (standing.edges b c).1 waits
      refine ⟨((sound.edge_iff b c).1 edge).2.1, kept, fun u edge => (isOver u).2 ?_⟩
      by_cases finished : s.IsOver (b :: rest) u
      · exact .inl finished
      · exact .inr (only u ((standing.edges u c).2 ⟨edge, finished, kept⟩))
  · intro c here notScheduled notFreed kept
    rw [unchanged.1] at notScheduled
    obtain ⟨u, edge⟩ := standing.waiting c here notScheduled List.not_mem_nil kept
    by_contra none
    have only : ∀ d, s.graph.Edge d c → d = b := fun d edge => by
      by_contra other
      exact none ⟨d, (edges d c).2 ⟨edge, other⟩⟩
    refine notFreed (WaitGraph.mem_freedBy.2 ⟨only u edge ▸ edge, ?_, only⟩)
    exact fun same => notScheduled (same ▸ scheduled)
  · rw [unchanged.1]
    exact standing.ordered
  · intro c freed asked
    rw [unchanged.1] at asked
    exact standing.not_edge_of_scheduled asked (WaitGraph.mem_freedBy.1 freed).1
  · rw [unchanged.1]
    exact fun c h => standing.due c (List.mem_cons_of_mem _ h)

/-- Of an asked bear, everything that it depends on was asked before it. -/
theorem mem_earlier (standing : Standing r done todo fresh s) (sound : r.Sound)
    {earlier later : List (Bear w)} {b u : Bear w} (split : s.scheduled = earlier ++ b :: later)
    (edge : r.graph.Edge u b) : u ∈ earlier := by
  have asked : b ∈ s.scheduled := split ▸ List.mem_append_right _ List.mem_cons_self
  have mem := ((standing.ready b (.inl asked)).2.2 u edge).1
  have ordered := standing.ordered
  rw [split, List.pairwise_append, List.pairwise_cons] at ordered
  rw [split, List.mem_append, List.mem_cons] at mem
  rcases mem with mem | rfl | mem
  · exact mem
  · exact absurd (.single edge) (WaitGraph.acyclic_of_wellFounded sound.founded u)
  · exact absurd edge (ordered.2.1.1 u mem)

/-! ## Ending a task -/

/-- When a task is crossed off, its bear has to be resolved, and nobody becomes over. -/
theorem isOver_retire (books : Ledger done [] s) {t : Ticket w ρ} (flying : t ∈ s.inFlight)
    {s' : Session w ρ} (scheduled : s'.scheduled = s.scheduled) (landed : s'.inFlight = s.others t)
    (u : Bear w) : s'.IsOver [t.bear] u ↔ s.IsOver [] u := by
  unfold IsOver
  rw [scheduled, landed, others]
  constructor
  · rintro ⟨asked, landed, other⟩
    refine ⟨asked, fun v mem mine => ?_, List.not_mem_nil⟩
    by_cases same : v.id = t.id
    · have := List.inj_on_of_nodup_map books.nodup_inFlight mem flying same
      exact other (List.mem_singleton.2 (mine ▸ congrArg Ticket.bear this))
    · exact landed v (List.mem_filter.2 ⟨mem, decide_eq_true same⟩) mine
  · rintro ⟨asked, landed, _⟩
    refine ⟨asked, fun v mem => landed v (List.mem_filter.1 mem).1, fun mem => ?_⟩
    exact landed t flying (List.mem_singleton.1 mem).symm

/-- What a failed bear leads to in the roster is withdrawn already, or the edges that are left lead
there too. -/
theorem withdrawn_or_path (standing : Standing r done [] [] s) {t : Ticket w ρ}
    (flying : t ∈ s.inFlight) {b : Bear w} (path : Relation.TransGen r.graph.Edge t.bear b) :
    r.graph.Withdrawn done b ∨ Relation.TransGen s.graph.Edge t.bear b := by
  induction path with
  | @single b edge =>
    by_cases out : r.graph.Withdrawn done b
    · exact .inl out
    · have unfinished : ¬ s.IsOver [] t.bear := fun isOver => isOver.2.1 t flying rfl
      exact .inr (.single ((standing.edges t.bear b).2 ⟨edge, unfinished, out⟩))
  | @tail c b _ edge ih =>
    by_cases out : r.graph.Withdrawn done b
    · exact .inl out
    · rcases ih with gone | path
      · exact .inl (gone.edge edge)
      · -- Somebody is left that `c` waits on, so `c` was not asked and is not over.
        have unfinished : ¬ s.IsOver [] c := fun isOver =>
          standing.not_path_of_scheduled isOver.1 path
        exact .inr (path.tail ((standing.edges c b).2 ⟨edge, unfinished, out⟩))

theorem absorb_ok (standing : Standing r done [] [] s) (books : Ledger done [] s)
    {t : Ticket w ρ} (flying : t ∈ s.inFlight) (results : List ρ) :
    Standing r (done ++ [⟨t, .ok results⟩]) [t.bear] []
      ((s.absorb t (.ok results)).retire t) := by
  have isOver : ∀ u, ((s.absorb t (.ok results)).retire t).IsOver [t.bear] u ↔ s.IsOver [] u :=
    isOver_retire books flying rfl rfl
  have withdrawn : ∀ b, r.graph.Withdrawn (done ++ [⟨t, .ok results⟩]) b ↔
      r.graph.Withdrawn done b := fun _ => WaitGraph.withdrawn_append_ok
  refine { ordered := standing.ordered, new := standing.new, distinct := standing.distinct
           once := List.nodup_singleton _, edges := fun u v => ?_, ready := fun b h => ?_
           waiting := fun b here notScheduled notFresh kept => ?_, due := fun b h => ?_ }
  · rw [isOver, withdrawn]
    exact standing.edges u v
  · obtain ⟨here, kept, deps⟩ := standing.ready b h
    exact ⟨here, mt (withdrawn b).1 kept, fun u edge => (isOver u).2 (deps u edge)⟩
  · exact standing.waiting b here notScheduled notFresh (mt (withdrawn b).2 kept)
  · rw [List.mem_singleton.1 h]
    exact books.owner t (books.mem_submitted flying)

theorem absorb_error (sound : r.Sound) (standing : Standing r done [] [] s)
    (books : Ledger done [] s) {t : Ticket w ρ} (flying : t ∈ s.inFlight)
    (failure : TaskFailure) :
    Standing r (done ++ [⟨t, .error failure⟩]) [t.bear] []
      ((s.absorb t (.error failure)).retire t) := by
  obtain ⟨bs, graph, buffers, eq, left, _⟩ := withdrawDependants_eq
    (s := s.note (.taskFailed t.bear failure)) (standing.acyclic sound) t.bear
  have isOver : ∀ u, ((s.absorb t (.error failure)).retire t).IsOver [t.bear] u ↔
      s.IsOver [] u := by
    rw [Session.absorb, eq]
    exact isOver_retire books flying rfl rfl
  have withdrawn : ∀ b, r.graph.Withdrawn (done ++ [⟨t, .error failure⟩]) b ↔
      r.graph.Withdrawn done b ∨ Relation.TransGen r.graph.Edge t.bear b := fun _ =>
    WaitGraph.withdrawn_append_error
  have edges : ∀ u v, graph.Edge u v ↔ r.graph.Edge u v ∧ ¬ s.IsOver [] u ∧
      ¬ r.graph.Withdrawn (done ++ [⟨t, .error failure⟩]) v := by
    intro u v
    -- An edge that leaves a dependant leads to one, so it is enough to see where edges lead.
    rw [left, withdrawn, not_or]
    constructor
    · rintro ⟨edge, _, apart⟩
      obtain ⟨edge, unfinished, kept⟩ := (standing.edges u v).1 edge
      exact ⟨edge, unfinished, kept,
        fun path => (standing.withdrawn_or_path flying path).elim kept apart⟩
    · rintro ⟨edge, unfinished, kept, apart⟩
      exact ⟨(standing.edges u v).2 ⟨edge, unfinished, kept⟩,
        fun path => apart ((standing.path_roster path).tail edge),
        fun path => apart (standing.path_roster path)⟩
  rw [Session.absorb, eq] at isOver ⊢
  refine { ordered := standing.ordered, new := standing.new, distinct := standing.distinct
           once := List.nodup_singleton _, edges := fun u v => ?_, ready := fun b h => ?_
           waiting := fun b here notScheduled notFresh kept => ?_, due := fun b h => ?_ }
  · rw [isOver]
    exact edges u v
  · obtain ⟨here, kept, deps⟩ := standing.ready b h
    refine ⟨here, fun out => ?_, fun u edge => (isOver u).2 (deps u edge)⟩
    rcases (withdrawn b).1 out with out | path
    · exact kept out
    · -- No edge that is left leads to a bear that was asked, so it does not depend on this failure.
      have asked := h.resolve_right List.not_mem_nil
      have apart : ¬ Relation.TransGen s.graph.Edge t.bear b :=
        standing.not_path_of_scheduled asked
      exact (standing.withdrawn_or_path flying path).elim kept apart
  · obtain ⟨u, waits⟩ := standing.waiting b here notScheduled notFresh
      fun out => kept ((withdrawn b).2 (.inl out))
    obtain ⟨edge, unfinished, _⟩ := (standing.edges u b).1 waits
    exact ⟨u, (edges u b).2 ⟨edge, unfinished, kept⟩⟩
  · rw [List.mem_singleton.1 h]
    exact books.owner t (books.mem_submitted flying)

/-! ## The beginning -/

theorem ofRoster (sound : r.Sound) {supplied : List (Bear w)} {said : List (Notice w)} :
    Standing r [] [] r.entryPoints (Session.ofRoster supplied r said : Session w ρ) where
  edges u v := by
    refine ⟨fun edge => ⟨edge, ?_, WaitGraph.not_withdrawn_nil v⟩, fun h => h.1⟩
    exact fun isOver => absurd isOver.1 List.not_mem_nil
  ready b h := by
    obtain ⟨here, free⟩ := Roster.mem_entryPoints.1 (h.resolve_left List.not_mem_nil)
    exact ⟨here, WaitGraph.not_withdrawn_nil b, fun u edge => absurd edge (free u)⟩
  waiting b here _ notEntry _ := by
    by_contra none
    exact notEntry (Roster.mem_entryPoints.2 ⟨here, not_exists.1 none⟩)
  ordered := .nil
  new _ _ := List.not_mem_nil
  distinct := sound.nodup.filter _
  due _ h := absurd h List.not_mem_nil
  once := .nil

/-- The sink changes nothing for the bears. -/
theorem offer (sink : Sink σ ρ) {taken : σ} (standing : Standing r done todo fresh s)
    (result : ρ) : Standing r done todo fresh (Session.offer sink (s, taken) result).1 := by
  rw [offer_eq]
  exact { standing with }

end Standing

end Session

end AnalysisScheduler
