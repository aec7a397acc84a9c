import AnalysisScheduler.Proofs.Run.View

/-!
# A session and its shadow at one site

A session of all bears next to one of the bears of a single site (`Session.Shadow`): the second has
the edges, the tasks in flight and the deeds that are seen of the first. A step that concerns a bear
of the site is matched by the same step of the bear under its new name, any other step by none.
Both keep the shadow (`Mirrors.askAll`, `Mirrors.settle`, `Mirrors.finish_here`,
`Mirrors.finish_elsewhere`, `Mirrors.offers`).
-/

namespace AnalysisScheduler

variable {w : Workspace} {ρ σ σ' : Type}

/-- Tickets of one bear are known from their numbers and their tasks. -/
theorem Ticket.eq_of_map {b : Bear w} {ts us : List (Ticket w ρ)} (left : ∀ t ∈ ts, t.bear = b)
    (right : ∀ u ∈ us, u.bear = b) (ids : ts.map Ticket.id = us.map Ticket.id)
    (tasks : ts.map Ticket.task = us.map Ticket.task) : ts = us := by
  induction ts generalizing us with
  | nil => exact (List.map_eq_nil_iff.1 ids.symm).symm
  | cons t ts ih =>
    cases us with
    | nil => cases ids
    | cons u us =>
      obtain ⟨id, ids⟩ := List.cons.inj ids
      obtain ⟨task, tasks⟩ := List.cons.inj tasks
      have bear := (left t List.mem_cons_self).trans (right u List.mem_cons_self).symm
      have rest := ih (fun t mem => left t (List.mem_cons_of_mem _ mem))
        (fun u mem => right u (List.mem_cons_of_mem _ mem)) ids tasks
      cases t
      cases u
      cases id
      cases bear
      cases task
      rw [rest]

namespace Session

/-- What is seen of `s` at the site of the view is what `s'` is. -/
structure Shadow (v : View w) (r : Roster w) (s s' : Session w ρ) : Prop where
  graph : s.graph.Copies (r.bears.filter (·.site = v.site)) v.ren s'.graph
  inFlight : s'.inFlight = v.see s.inFlight
  deeds : History.deeds s'.history = v.see (History.deeds s.history)

/-- A session of the roster `r` and its shadow, a session of the part `r'` at the site. In both the
same has ended and the same is left to be done, as far as it is seen. -/
structure Mirrors (v : View w) (r r' : Roster w) (done : List (Ending w ρ))
    (todo fresh : List (Bear w)) (s s' : Session w ρ) : Prop where
  sound : r.Sound
  sound' : r'.Sound
  part : r.IsPart v.site v.ren r'
  inv : Invariant r done todo fresh s
  inv' : Invariant r' (v.see done) (v.see todo) (v.see fresh) s'
  shadow : Shadow v r s s'

variable {v : View w} {r r' : Roster w} {done : List (Ending w ρ)} {todo fresh : List (Bear w)}
  {s s' : Session w ρ}

theorem Shadow.submitted (shadow : Shadow v r s s') :
    History.submitted s'.history = v.see (History.submitted s.history) := by
  rw [History.submitted_eq_deeds, shadow.deeds, View.filterMap_submitted?_see,
    ← History.submitted_eq_deeds]

theorem see_tickets {b : Bear w} (here : b.site = v.site) :
    v.see (s.tickets b) = (s.tickets b).map (.rename v.ren v.number) :=
  View.see_eq_map fun _ mem => (congrArg Bear.site (bear_of_mem_tickets mem)).trans here

namespace Mirrors

theorem nextTicket (m : Mirrors v r r' done todo fresh s s') :
    s'.nextTicket = (v.see (History.submitted s.history)).length := by
  have ids := congrArg List.length m.inv'.books.ids
  rw [List.length_map, List.length_range, m.shadow.submitted] at ids
  exact ids.symm

/-! ## Asking -/

/-- The same has been delivered to a bear that is to be asked. -/
theorem delivered (m : Mirrors v r r' done todo fresh s s') {b : Bear w} (mem : b ∈ fresh)
    (here : b.site = v.site) : s'.delivered (v.ren b) = (s.delivered b).rename v.ren := by
  have mem' : v.ren b ∈ v.see fresh := View.mem_see_iff.2 ⟨b, mem, here, rfl⟩
  obtain ⟨inside, kept, _⟩ := m.inv.standing.ready b (.inr mem)
  obtain ⟨_, kept', _⟩ := m.inv'.standing.ready _ (.inr mem')
  have known : ∀ e ∈ done, e.ticket.bear ∈ r.bears := fun e ended =>
    m.inv.mem_bears (m.inv.books.submitted.mem_iff.2
      (List.mem_append_left _ (List.mem_map_of_mem ended)))
  rw [m.inv.stock.held b (m.inv.standing.new b mem) kept,
    m.inv'.stock.held _ (m.inv'.standing.new _ mem') kept',
    View.received_eq m.part known (List.mem_filter.2 ⟨inside, decide_eq_true here⟩)]

/-- The same tasks would be submitted for it, under the new numbers. -/
theorem tickets (m : Mirrors v r r' done todo fresh s s') {b : Bear w} (mem : b ∈ fresh)
    (here : b.site = v.site) (numbers : v.Numbers (s.history ++ s.interview b)) :
    s'.tickets (v.ren b) = v.see (s.tickets b) := by
  -- The new numbers go on where those of the tasks that were seen before end.
  have ids : (v.see (s.tickets b)).map Ticket.id =
      List.range' s'.nextTicket (v.see (s.tickets b)).length := by
    have before := numbers.of_prefix (List.prefix_append _ _)
    unfold View.Numbers at numbers before
    rw [History.submitted_append, submitted_interview, View.see_append, List.map_append, before,
      List.length_append, List.range_eq_range', List.range_eq_range', ← List.range'_append_1,
      List.append_cancel_left_eq, Nat.zero_add, ← m.nextTicket] at numbers
    exact numbers
  have tasks : (s'.tickets (v.ren b)).map Ticket.task = (v.see (s.tickets b)).map Ticket.task := by
    rw [map_task_tickets, m.delivered mem here,
      Bear.tasks_rename m.part.sameKind m.part.sameSite, ← map_task_tickets, see_tickets here,
      List.map_map, List.map_map]
    rfl
  refine Ticket.eq_of_map (b := v.ren b) (fun t => bear_of_mem_tickets) (fun t mem => ?_) ?_ tasks
  · obtain ⟨u, old, _, rfl⟩ := View.mem_see_iff.1 mem
    exact congrArg v.ren (bear_of_mem_tickets old)
  · have length := congrArg List.length tasks
    rw [List.length_map, List.length_map] at length
    rw [map_id_tickets, ids, length]

/-- A bear of the site is asked on both sides. -/
theorem ask_here (m : Mirrors v r r' done todo fresh s s') {b : Bear w} (mem : b ∈ fresh)
    (here : b.site = v.site) (numbers : v.Numbers (s.ask b).1.history) :
    (s'.ask (v.ren b)).2 = v.see (s.ask b).2 ∧
      Shadow v r (s.ask b).1 (s'.ask (v.ren b)).1 := by
  have mem' : v.ren b ∈ v.see fresh := View.mem_see_iff.2 ⟨b, mem, here, rfl⟩
  rw [ask_of_new (m.inv.standing.new b mem)] at numbers ⊢
  rw [ask_of_new (m.inv'.standing.new _ mem')]
  have tickets := m.tickets mem here numbers
  have none : s'.tickets (v.ren b) = [] ↔ s.tickets b = [] := by
    rw [tickets, see_tickets here, List.map_eq_nil_iff]
  refine ⟨?_, m.shadow.graph, ?_, ?_⟩
  · simp only [none]
    split
    · exact (View.see_bear_here here []).symm
    · rfl
  · show s'.inFlight ++ s'.tickets (v.ren b) = v.see (s.inFlight ++ s.tickets b)
    rw [View.see_append, m.shadow.inFlight, tickets]
  · show History.deeds (s'.history ++ s'.interview (v.ren b)) =
      v.see (History.deeds (s.history ++ s.interview b))
    have mine : ∀ d ∈ History.deeds (s.interview b), d.bear.site = v.site := fun d mem =>
      (congrArg Bear.site (bear_of_mem_deeds_interview mem)).trans here
    rw [History.deeds_append, History.deeds_append, View.see_append, m.shadow.deeds,
      View.see_eq_map mine, deeds_interview, deeds_interview, m.delivered mem here, tickets,
      see_tickets here, List.map_cons, List.map_map, List.map_map]
    rfl

/-- A bear of another site is asked on one side only, which is not seen. -/
theorem ask_elsewhere (m : Mirrors v r r' done todo fresh s s') {b : Bear w} (mem : b ∈ fresh)
    (elsewhere : b.site ≠ v.site) : v.see (s.ask b).2 = [] ∧ Shadow v r (s.ask b).1 s' := by
  rw [ask_of_new (m.inv.standing.new b mem)]
  refine ⟨?_, m.shadow.graph, ?_, ?_⟩
  · refine View.see_eq_nil fun u mem same => elsewhere ?_
    dsimp only at mem
    split at mem
    · exact List.mem_singleton.1 mem ▸ same
    · exact absurd mem List.not_mem_nil
  · show s'.inFlight = v.see (s.inFlight ++ s.tickets b)
    rw [View.see_append, m.shadow.inFlight, View.see_eq_nil fun t mem same =>
      elsewhere ((congrArg Bear.site (bear_of_mem_tickets mem)).symm.trans same), List.append_nil]
  · show History.deeds s'.history = v.see (History.deeds (s.history ++ s.interview b))
    rw [History.deeds_append, View.see_append, m.shadow.deeds, View.see_eq_nil fun d mem same =>
      elsewhere ((congrArg Bear.site (bear_of_mem_deeds_interview mem)).symm.trans same),
      List.append_nil]

/-- Bears are asked one after another, on the other side only those of the site. -/
theorem shadow_askAll (m : Mirrors v r r' done todo fresh s s')
    (numbers : v.Numbers (s.askAll fresh).1.history) :
    (s'.askAll (v.see fresh)).2 = v.see (s.askAll fresh).2 ∧
      Shadow v r (s.askAll fresh).1 (s'.askAll (v.see fresh)).1 := by
  induction fresh generalizing s s' todo with
  | nil => exact ⟨rfl, m.shadow⟩
  | cons b rest ih =>
    have earlier := numbers.of_prefix (history_askAll (s.ask b).1 rest)
    show _ = v.see ((s.ask b).2 ++ ((s.ask b).1.askAll rest).2) ∧ _
    have asked' := m.inv'
    rw [View.see_append]
    by_cases here : b.site = v.site
    · obtain ⟨idle, shadow⟩ := m.ask_here List.mem_cons_self here earlier
      rw [View.see_bear_here here] at asked' ⊢
      have m' : Mirrors v r r' done ((s.ask b).2 ++ todo) rest (s.ask b).1
          (s'.ask (v.ren b)).1 := by
        refine { m with inv := m.inv.ask, inv' := ?_, shadow := shadow }
        rw [View.see_append, ← idle]
        exact asked'.ask
      obtain ⟨more, later⟩ := ih m' numbers
      rw [← idle, ← more]
      exact ⟨rfl, later⟩
    · obtain ⟨idle, shadow⟩ := m.ask_elsewhere List.mem_cons_self here
      rw [View.see_bear_elsewhere here] at asked' ⊢
      rw [idle]
      refine ih { m with inv := m.inv.ask, inv' := ?_, shadow := shadow } numbers
      rw [View.see_append, idle]
      exact asked'

/-- After that, both sides have the same bears without tasks to resolve. -/
theorem askAll (m : Mirrors v r r' done todo fresh s s')
    (numbers : v.Numbers (s.askAll fresh).1.history) :
    Mirrors v r r' done ((s.askAll fresh).2 ++ todo) [] (s.askAll fresh).1
      (s'.askAll (v.see fresh)).1 := by
  obtain ⟨idle, shadow⟩ := m.shadow_askAll numbers
  refine { m with inv := m.inv.askAll, inv' := ?_, shadow := shadow }
  rw [View.see_append, ← idle]
  exact m.inv'.askAll

/-! ## Resolving -/

/-- A bear of the site has unfinished tasks on both sides or on none. -/
theorem isBusy_eq (m : Mirrors v r r' done todo fresh s s') {b : Bear w} (inside : b ∈ r.bears)
    (here : b.site = v.site) : s'.isBusy (v.ren b) = s.isBusy b := by
  rw [Bool.eq_iff_iff, m.inv.books.isBusy_iff, m.inv'.books.isBusy_iff, m.shadow.inFlight]
  constructor
  · rintro ⟨t', flying', mine⟩
    obtain ⟨t, flying, site, rfl⟩ := View.mem_see_iff.1 flying'
    have known := m.inv.mem_bears (m.inv.books.mem_submitted flying)
    exact ⟨t, flying, m.shadow.graph.injective _ (List.mem_filter.2 ⟨known, decide_eq_true site⟩) b
      (List.mem_filter.2 ⟨inside, decide_eq_true here⟩) mine⟩
  · rintro ⟨t, flying, rfl⟩
    exact ⟨_, View.mem_see_iff.2 ⟨t, flying, here, rfl⟩, rfl⟩

/-- A bear frees others of its own site only. -/
theorem site_of_freedBy (m : Mirrors v r r' done todo fresh s s') {b u : Bear w}
    (freed : u ∈ s.graph.freedBy b) : u.site = b.site := by
  have waits : s.graph.Edge b u := (List.mem_filter.1 freed).1
  obtain ⟨edge, _⟩ := (m.inv.standing.edges b u).1 waits
  obtain ⟨_, _, same, _⟩ := (m.sound.edge_iff b u).1 edge
  exact same.symm

theorem release_here {b : Bear w} {rest : List (Bear w)}
    (m : Mirrors v r r' done (b :: rest) [] s s') (here : b.site = v.site)
    (idle : s.isBusy b = false) :
    s'.isBusy (v.ren b) = false ∧ s'.graph.freedBy (v.ren b) = v.see (s.graph.freedBy b) ∧
      Mirrors v r r' done rest (s.graph.freedBy b) (s.release b) (s'.release (v.ren b)) := by
  obtain ⟨inside, _⟩ := m.inv.standing.ready b (.inl (m.inv.standing.due b List.mem_cons_self))
  have mem : b ∈ r.bears.filter (·.site = v.site) :=
    List.mem_filter.2 ⟨inside, decide_eq_true here⟩
  have idle' : s'.isBusy (v.ren b) = false := (m.isBusy_eq inside here).trans idle
  have freed : s'.graph.freedBy (v.ren b) = v.see (s.graph.freedBy b) := by
    rw [m.shadow.graph.freedBy mem]
    exact (View.see_eq_map fun u freed => (m.site_of_freedBy freed).trans here).symm
  obtain ⟨es, _, released⟩ := release_eq s b
  obtain ⟨es', _, released'⟩ := release_eq s' (v.ren b)
  refine ⟨idle', freed, { m with inv := m.inv.release m.sound idle, inv' := ?_, shadow := ?_ }⟩
  · have left' := m.inv'
    rw [View.see_bear_here here] at left'
    exact freed ▸ left'.release m.sound' idle'
  · refine ⟨?_, ?_, ?_⟩
    · rw [released, released']
      exact m.shadow.graph.resolve mem
    · rw [released, released']
      exact m.shadow.inFlight
    · rw [deeds_release, deeds_release]
      exact m.shadow.deeds

theorem release_elsewhere {b : Bear w} {rest : List (Bear w)}
    (m : Mirrors v r r' done (b :: rest) [] s s') (elsewhere : b.site ≠ v.site)
    (idle : s.isBusy b = false) :
    v.see (s.graph.freedBy b) = [] ∧
      Mirrors v r r' done rest (s.graph.freedBy b) (s.release b) s' := by
  have freed : v.see (s.graph.freedBy b) = [] :=
    View.see_eq_nil fun u freed same => elsewhere ((m.site_of_freedBy freed).symm.trans same)
  obtain ⟨es, _, released⟩ := release_eq s b
  refine ⟨freed, { m with inv := m.inv.release m.sound idle, inv' := ?_, shadow := ?_ }⟩
  · have left' := m.inv'
    rw [View.see_bear_elsewhere elsewhere] at left'
    exact freed ▸ left'
  · refine ⟨?_, ?_, ?_⟩
    · rw [released]
      refine m.shadow.graph.resolve_other fun mem => elsewhere ?_
      exact of_decide_eq_true (List.mem_filter.1 mem).2
    · rw [released]
      exact m.shadow.inFlight
    · rw [deeds_release]
      exact m.shadow.deeds

/-- Resolving on one side is resolving on the other, bear by bear. -/
theorem settle (m : Mirrors v r r' done todo [] s s')
    (numbers : v.Numbers (s.settle todo).history) :
    Mirrors v r r' done [] [] (s.settle todo) (s'.settle (v.see todo)) := by
  -- What is left to be done on the other side leads to where it was to lead from the start.
  have along : v.Numbers (s.settle todo).history → ∃ s₁,
      Mirrors v r r' done [] [] (s.settle todo) s₁ ∧ s₁.settle [] = s'.settle (v.see todo) := by
    refine settle_induction (P := fun s left => v.Numbers s.history → ∃ s₁,
      Mirrors v r r' done left [] s s₁ ∧ s₁.settle (v.see left) = s'.settle (v.see todo))
      ?_ ?_ fun _ => ⟨s', m, rfl⟩
    · intro s b rest busy before numbers
      obtain ⟨s₁, m, same⟩ := before numbers
      obtain ⟨inside, _⟩ :=
        m.inv.standing.ready b (.inl (m.inv.standing.due b List.mem_cons_self))
      have left' := m.inv'
      refine ⟨s₁, ?_⟩
      by_cases here : b.site = v.site
      · have busy' : s₁.isBusy (v.ren b) = true := (m.isBusy_eq inside here).trans busy
        rw [View.see_bear_here here] at left' same
        rw [settle_of_busy busy'] at same
        exact ⟨{ m with inv := m.inv.pass busy, inv' := left'.pass busy' }, same⟩
      · rw [View.see_bear_elsewhere here] at left' same
        exact ⟨{ m with inv := m.inv.pass busy, inv' := left' }, same⟩
    · intro s b rest idle before numbers
      obtain ⟨s₁, m, same⟩ := before (numbers.of_prefix
        ((s.history_release b).trans (history_askAll _ _)))
      by_cases here : b.site = v.site
      · obtain ⟨idle', freed, m'⟩ := m.release_here here idle
        obtain ⟨more, _⟩ := m'.shadow_askAll numbers
        refine ⟨_, m'.askAll numbers, ?_⟩
        rw [View.see_append, ← more, ← same, View.see_bear_here here, ← freed]
        exact (settle_of_idle idle' _).symm
      · obtain ⟨freed, m'⟩ := m.release_elsewhere here idle
        obtain ⟨more, _⟩ := m'.shadow_askAll numbers
        rw [View.see_bear_elsewhere here] at same
        refine ⟨_, m'.askAll numbers, ?_⟩
        rw [View.see_append, ← more, freed]
        exact same
  obtain ⟨s₁, m', same⟩ := along numbers
  rw [settle_nil] at same
  exact same ▸ m'

/-! ## Ending a task -/

theorem others_here (m : Mirrors v r r' done todo fresh s s') {t : Ticket w ρ}
    (flying : t ∈ s.inFlight) (here : t.bear.site = v.site) (numbers : v.Numbers s.history) :
    s'.others (t.rename v.ren v.number) = v.see (s.others t) := by
  unfold others
  rw [m.shadow.inFlight]
  unfold View.see
  rw [List.filter_map]
  refine congrArg _ (.trans (List.filter_congr fun u mem => ?_) (List.filter_comm ..))
  obtain ⟨flying', there⟩ := List.mem_filter.1 mem
  rw [Function.comp_apply, decide_eq_decide]
  refine not_congr ⟨fun same => ?_, congrArg v.number⟩
  -- The new numbers tell apart what the old ones do.
  have one := numbers.injective (m.inv.books.mem_submitted flying') (of_decide_eq_true there)
    (m.inv.books.mem_submitted flying) here same
  exact congrArg Ticket.id one

theorem others_elsewhere (m : Mirrors v r r' done todo fresh s s') {t : Ticket w ρ}
    (flying : t ∈ s.inFlight) (elsewhere : t.bear.site ≠ v.site) :
    v.see (s.others t) = v.see s.inFlight := by
  unfold others View.see
  rw [List.filter_comm]
  refine congrArg _ (List.filter_eq_self.2 fun u mem => decide_eq_true fun same => ?_)
  obtain ⟨flying', there⟩ := List.mem_filter.1 mem
  -- A task of the site is not the one that has ended.
  have one := List.inj_on_of_nodup_map m.inv.books.nodup_inFlight flying' flying same
  exact elsewhere (one ▸ of_decide_eq_true there)

/-- A failure takes the same bears of the site out of the graph on both sides. -/
theorem graph_absorb_here (m : Mirrors v r r' done todo fresh s s') {t : Ticket w ρ}
    (flying : t ∈ s.inFlight) (here : t.bear.site = v.site) (outcome : Outcome ρ) :
    (s.absorb t outcome).graph.Copies (r.bears.filter (·.site = v.site)) v.ren
      (s'.absorb (t.rename v.ren v.number) outcome).graph := by
  cases outcome with
  | ok results => exact m.shadow.graph
  | error failure =>
    have inside : t.bear ∈ r.bears.filter (·.site = v.site) :=
      List.mem_filter.2 ⟨m.inv.mem_bears (m.inv.books.mem_submitted flying), decide_eq_true here⟩
    obtain ⟨bs, mem, withdrawn⟩ := withdrawDependants_eq_foldl
      (s := s.note (.taskFailed t.bear failure)) (m.inv.standing.acyclic m.sound) t.bear
    obtain ⟨bs', mem', withdrawn'⟩ := withdrawDependants_eq_foldl
      (s := s'.note (.taskFailed (t.rename v.ren v.number).bear failure))
      (m.inv'.standing.acyclic m.sound') (t.rename v.ren v.number).bear
    unfold absorb
    dsimp only
    rw [withdrawn, withdrawn']
    refine m.shadow.graph.foldl_resolve bs bs' fun b there => ?_
    rw [mem, mem']
    exact m.shadow.graph.transGen_iff inside there

/-- A failure elsewhere takes nobody of the site out of the graph. -/
theorem graph_absorb_elsewhere (m : Mirrors v r r' done todo fresh s s') {t : Ticket w ρ}
    (elsewhere : t.bear.site ≠ v.site) (outcome : Outcome ρ) :
    (s.absorb t outcome).graph.Copies (r.bears.filter (·.site = v.site)) v.ren s'.graph := by
  cases outcome with
  | ok results => exact m.shadow.graph
  | error failure =>
    obtain ⟨bs, mem, withdrawn⟩ := withdrawDependants_eq_foldl
      (s := s.note (.taskFailed t.bear failure)) (m.inv.standing.acyclic m.sound) t.bear
    unfold absorb
    dsimp only
    rw [withdrawn]
    refine m.shadow.graph.foldl_resolve bs [] fun b there => ?_
    rw [mem]
    refine iff_of_false List.not_mem_nil fun path => elsewhere ?_
    have inside := m.shadow.graph.mem_of_transGen there path
    exact of_decide_eq_true (List.mem_filter.1 inside).2

theorem finish_here (m : Mirrors v r r' done [] [] s s') {t : Ticket w ρ} (flying : t ∈ s.inFlight)
    (here : t.bear.site = v.site) (outcome : Outcome ρ)
    (numbers : v.Numbers (s.finish t outcome).history) :
    Mirrors v r r' (done ++ [⟨t, outcome⟩]) [] [] (s.finish t outcome)
      (s'.finish (t.rename v.ren v.number) outcome) := by
  have before := numbers.of_prefix (s.history_finish t outcome)
  -- Both sides absorb the outcome, and then resolve the bear.
  have flying' : t.rename v.ren v.number ∈ s'.inFlight :=
    m.shadow.inFlight ▸ View.mem_see_iff.2 ⟨t, flying, here, rfl⟩
  have absorbed : Mirrors v r r' (done ++ [⟨t, outcome⟩]) [t.bear] []
      ((s.absorb t outcome).retire t)
      ((s'.absorb (t.rename v.ren v.number) outcome).retire (t.rename v.ren v.number)) := by
    refine { m with inv := m.inv.absorb m.sound flying outcome, inv' := ?_, shadow := ?_ }
    · rw [View.see_append, View.see_cons_here (a := (⟨t, outcome⟩ : Ending w ρ)) here,
        View.see_bear_here here]
      exact m.inv'.absorb m.sound' flying' outcome
    · refine ⟨m.graph_absorb_here flying here outcome, ?_, ?_⟩
      · rw [inFlight_retire, inFlight_retire]
        exact m.others_here flying here before
      · refine (deeds_absorb s' _ outcome).trans (m.shadow.deeds.trans ?_)
        exact congrArg v.see (deeds_absorb s t outcome).symm
  have settled := absorbed.settle numbers
  rwa [View.see_bear_here here] at settled

theorem finish_elsewhere (m : Mirrors v r r' done [] [] s s') {t : Ticket w ρ}
    (flying : t ∈ s.inFlight) (elsewhere : t.bear.site ≠ v.site) (outcome : Outcome ρ)
    (numbers : v.Numbers (s.finish t outcome).history) :
    Mirrors v r r' (done ++ [⟨t, outcome⟩]) [] [] (s.finish t outcome) s' := by
  have absorbed : Mirrors v r r' (done ++ [⟨t, outcome⟩]) [t.bear] []
      ((s.absorb t outcome).retire t) s' := by
    refine { m with inv := m.inv.absorb m.sound flying outcome, inv' := ?_, shadow := ?_ }
    · rw [View.see_append, View.see_cons_elsewhere (a := (⟨t, outcome⟩ : Ending w ρ)) elsewhere,
        View.see_bear_elsewhere elsewhere]
      exact (List.append_nil (v.see done)).symm ▸ m.inv'
    · refine ⟨m.graph_absorb_elsewhere elsewhere outcome, ?_, ?_⟩
      · rw [inFlight_retire, m.others_elsewhere flying elsewhere]
        exact m.shadow.inFlight
      · exact m.shadow.deeds.trans (congrArg v.see (deeds_absorb s t outcome).symm)
  have settled := absorbed.settle numbers
  rw [View.see_bear_elsewhere elsewhere] at settled
  exact s'.settle_nil ▸ settled

/-! ## The sink -/

/-- What is offered to the sinks on both sides changes nothing for the bears. -/
theorem offers (sink : Sink σ ρ) (results : List ρ) (state : Session w ρ × σ) (sink' : Sink σ' ρ)
    (results' : List ρ) (state' : Session w ρ × σ')
    (m : Mirrors v r r' done [] [] state.1 state'.1) :
    Mirrors v r r' done [] [] (results.foldl (offer sink) state).1
      (results'.foldl (offer sink') state').1 := by
  obtain ⟨graph, inFlight⟩ := offers_keep sink results state
  obtain ⟨graph', inFlight'⟩ := offers_keep sink' results' state'
  refine { m with
    inv := m.inv.offers sink results
    inv' := m.inv'.offers sink' results'
    shadow := ⟨?_, ?_, ?_⟩ }
  · rw [graph, graph']
    exact m.shadow.graph
  · rw [inFlight, inFlight']
    exact m.shadow.inFlight
  · rw [deeds_offers, deeds_offers]
    exact m.shadow.deeds

end Mirrors

end Session

end AnalysisScheduler
