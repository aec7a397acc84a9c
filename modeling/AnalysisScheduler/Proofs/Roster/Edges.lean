import AnalysisScheduler.Proofs.Graph.Order
import AnalysisScheduler.Proofs.Roster.Assembly

/-!
# In which order bears wait

The dependants and the dependencies of a bear are listed in the order in which the walk through the
kinds of its site follows the edges, so their kinds are known from the kinds that the site starts
with (`kinds_of_assemble`). Nothing else decides it, neither the numbers of the bears nor the other
sites.
-/

namespace AnalysisScheduler

variable {w : Workspace}

namespace Roster

/-- The kinds that wait on `k`, in the order in which a walk follows the edges. -/
def unlockedKinds (starts : List (KindId w)) (k : KindId w) : List (KindId w) :=
  (((walk (kindGraph w) starts).followed.filter (·.2 = k)).map Prod.fst).eraseDups

/-- The kinds that `k` waits on, in the order in which a walk follows the edges. -/
def awaitedKinds (starts : List (KindId w)) (k : KindId w) : List (KindId w) :=
  (((walk (kindGraph w) starts).followed.filter (·.1 = k)).map Prod.snd).eraseDups

/-! ## Connecting bears -/

/-- A list that gets the far end of each edge whose near end is `x`. -/
theorem foldl_far_ends {γ ε : Type} {step : γ → ε → γ} (list : γ → List (Bear w))
    (near far : ε → Option (Bear w)) {x : Bear w}
    (one : ∀ g e, list (step g e) =
      if near e = some x then (far e).toList.foldl appendNew (list g) else list g)
    (edges : List ε) (g : γ) :
    list (edges.foldl step g) =
      ((edges.filter (near · = some x)).filterMap far).foldl appendNew (list g) := by
  induction edges generalizing g with
  | nil => rfl
  | cons e rest ih =>
    rw [List.foldl_cons, ih, one]
    by_cases here : near e = some x
    · rw [if_pos here, List.filter_cons_of_pos (by simpa using here), List.filterMap_cons]
      cases far e <;> rfl
    · rw [if_neg here, List.filter_cons_of_neg (by simpa using here)]

theorem dependantsOf_foldl_connect (group : Group w) (graph : WaitGraph (Bear w))
    (edges : List (KindId w × KindId w)) (x : Bear w) :
    (edges.foldl (connect group) graph).dependantsOf x =
      ((edges.filter (group.get? ·.2 = some x)).filterMap (group.get? ·.1)).foldl appendNew
        (graph.dependantsOf x) := by
  refine foldl_far_ends (·.dependantsOf x) (group.get? ·.2) (group.get? ·.1) (fun graph e => ?_)
    edges graph
  unfold connect
  cases group.get? e.1 with
  | none => simp
  | some b =>
    cases group.get? e.2 with
    | none => simp
    | some d => simp [WaitGraph.dependantsOf_add, eq_comm]

theorem dependenciesOf_foldl_connect (group : Group w) (graph : WaitGraph (Bear w))
    (edges : List (KindId w × KindId w)) (x : Bear w) :
    (edges.foldl (connect group) graph).dependenciesOf x =
      ((edges.filter (group.get? ·.1 = some x)).filterMap (group.get? ·.2)).foldl appendNew
        (graph.dependenciesOf x) := by
  refine foldl_far_ends (·.dependenciesOf x) (group.get? ·.1) (group.get? ·.2) (fun graph e => ?_)
    edges graph
  unfold connect
  cases group.get? e.1 with
  | none => simp
  | some b =>
    cases group.get? e.2 with
    | none => simp
    | some d => simp [WaitGraph.dependenciesOf_add, eq_comm]

/-! ## One group -/

section Group

variable {site : Site w} {group : Group w}

theorem get?_eq_some_iff (isAt : Group.IsAt site group) {b : Bear w} (here : b ∈ group.values)
    {k : KindId w} : group.get? k = some b ↔ k = b.kindId := by
  constructor
  · exact fun found => (isAt k b found).1.symm
  · rintro rfl
    exact (isAt.of_mem_values here).1

/-- Bears that are collected by their kinds have these kinds. -/
theorem map_kindId_collect (isAt : Group.IsAt site group) {ks : List (KindId w)}
    (all : ∀ k ∈ ks, k ∈ group.keys) :
    ((ks.filterMap group.get?).foldl appendNew []).map Bear.kindId = ks.eraseDups := by
  rw [map_foldl_appendNew, map_kindId_filterMap_get? isAt all]
  · exact foldl_appendNew_nil ks
  · intro a mem b known same
    obtain ⟨k, _, found⟩ := List.mem_filterMap.1 mem
    obtain ⟨k', _, found'⟩ := List.mem_filterMap.1 (known.resolve_left List.not_mem_nil)
    rw [(isAt k a found).1, (isAt k' b found').1] at same
    rw [same, found'] at found
    exact (Option.some.inj found).symm

/-- In a group that was completed, the bears wait in the order of the walk. -/
theorem kinds_of_addGroup {r r' : Roster w} {nextId : Nat} {d : Draft w}
    (isAt : Group.IsAt site group) (ok : r.addGroup nextId group = (d, .ok r')) {b : Bear w}
    (here : b ∈ d.group.values) (alone : r.graph.dependantsOf b = [])
    (free : r.graph.dependenciesOf b = []) :
    (r'.graph.dependantsOf b).map Bear.kindId = unlockedKinds group.keys b.kindId ∧
      (r'.graph.dependenciesOf b).map Bear.kindId = awaitedKinds group.keys b.kindId := by
  obtain ⟨isAt', keys⟩ := keys_of_addGroup isAt ok
  obtain ⟨clear, _, rfl⟩ := addGroup_eq_ok ok
  -- The walk enters both ends of an edge that it follows.
  have ends : ∀ e ∈ (walk (kindGraph w) group.keys).followed,
      e.1 ∈ d.group.keys ∧ e.2 ∈ d.group.keys := by
    intro e mem
    obtain ⟨entered, leads⟩ := (Walk.mem_followed_walk clear).1 mem
    obtain ⟨s, start, reach⟩ := (Walk.mem_entered_walk clear).1 entered
    have later := (Walk.mem_entered_walk clear).2 ⟨s, start, reach.tail leads⟩
    exact ⟨(keys e.1).2 entered, (keys e.2).2 later⟩
  refine ⟨?_, ?_⟩
  · show ((List.foldl (connect d.group) r.graph _).dependantsOf b).map _ = _
    rw [dependantsOf_foldl_connect, alone, unlockedKinds]
    simp only [get?_eq_some_iff isAt' here]
    rw [← map_kindId_collect isAt', List.filterMap_map]
    · rfl
    · intro k mem
      obtain ⟨e, followed, rfl⟩ := List.mem_map.1 mem
      exact (ends e (List.mem_filter.1 followed).1).1
  · show ((List.foldl (connect d.group) r.graph _).dependenciesOf b).map _ = _
    rw [dependenciesOf_foldl_connect, free, awaitedKinds]
    simp only [get?_eq_some_iff isAt' here]
    rw [← map_kindId_collect isAt', List.filterMap_map]
    · rfl
    · intro k mem
      obtain ⟨e, followed, rfl⟩ := List.mem_map.1 mem
      exact (ends e (List.mem_filter.1 followed).1).2

/-- Bears of other sites are not touched when a group is added. -/
theorem lists_of_addGroup {r r' : Roster w} {nextId : Nat} {d : Draft w}
    (isAt : Group.IsAt site group) (ok : r.addGroup nextId group = (d, .ok r')) {b : Bear w}
    (other : b.site ≠ site) :
    r'.graph.dependantsOf b = r.graph.dependantsOf b ∧
      r'.graph.dependenciesOf b = r.graph.dependenciesOf b := by
  obtain ⟨isAt', _⟩ := keys_of_addGroup isAt ok
  obtain ⟨_, _, rfl⟩ := addGroup_eq_ok ok
  have none : ∀ k, d.group.get? k ≠ some b := fun k found => other (isAt' k b found).2
  constructor
  · show (List.foldl (connect d.group) r.graph _).dependantsOf b = _
    rw [dependantsOf_foldl_connect]
    simp [none]
  · show (List.foldl (connect d.group) r.graph _).dependenciesOf b = _
    rw [dependenciesOf_foldl_connect]
    simp [none]

end Group

/-! ## Whole rosters -/

theorem Completes.mem_or_site {r r' : Roster w} {nextId : Nat} {entries : List (Site w × Group w)}
    {said : List (Notice w)} (completes : Completes r r' nextId entries said)
    (isAt : ∀ e ∈ entries, Group.IsAt e.1 e.2) {b : Bear w} (here : b ∈ r'.bears) :
    b ∈ r.bears ∨ b.site ∈ entries.map Prod.fst := by
  rw [completes.bears, List.mem_append, List.mem_flatMap] at here
  refine here.imp_right fun ⟨e, mem, there⟩ => ?_
  have site : b.site = e.1 := by
    rcases List.mem_append.1 there with old | new
    · exact ((isAt e mem).of_mem_values old).2
    · exact of_decide_eq_true (List.mem_filter.1 new).2
  exact site ▸ List.mem_map_of_mem mem

theorem lists_of_addGroups {r r' : Roster w} {nextId : Nat} {entries : List (Site w × Group w)}
    {said : List (Notice w)} (isAt : ∀ e ∈ entries, Group.IsAt e.1 e.2)
    (ok : r.addGroups nextId (entries.map Prod.snd) = (said, .ok r')) {b : Bear w}
    (other : b.site ∉ entries.map Prod.fst) :
    r'.graph.dependantsOf b = r.graph.dependantsOf b ∧
      r'.graph.dependenciesOf b = r.graph.dependenciesOf b := by
  induction entries generalizing r nextId said with
  | nil =>
    cases ok
    exact ⟨rfl, rfl⟩
  | cons e rest ih =>
    rw [List.map_cons, List.mem_cons, not_or] at other
    obtain ⟨d, r₁, more, added, completed, _⟩ := addGroups_cons_eq_ok ok
    obtain ⟨dependants, dependencies⟩ :=
      lists_of_addGroup (isAt e List.mem_cons_self) added other.1
    rw [← dependants, ← dependencies]
    exact ih (fun e' mem => isAt e' (List.mem_cons_of_mem _ mem)) completed other.2

theorem kinds_of_addGroups {r r' : Roster w} {nextId : Nat} {entries : List (Site w × Group w)}
    {said : List (Notice w)} (isAt : ∀ e ∈ entries, Group.IsAt e.1 e.2)
    (distinct : (entries.map Prod.fst).Nodup)
    (ok : r.addGroups nextId (entries.map Prod.snd) = (said, .ok r')) {e : Site w × Group w}
    (mem : e ∈ entries) {b : Bear w} (here : b ∈ r'.bears) (site : b.site = e.1)
    (new : b ∉ r.bears) (alone : r.graph.dependantsOf b = [])
    (free : r.graph.dependenciesOf b = []) :
    (r'.graph.dependantsOf b).map Bear.kindId = unlockedKinds e.2.keys b.kindId ∧
      (r'.graph.dependenciesOf b).map Bear.kindId = awaitedKinds e.2.keys b.kindId := by
  induction entries generalizing r nextId said with
  | nil => exact absurd mem List.not_mem_nil
  | cons first rest ih =>
    rw [List.map_cons, List.nodup_cons] at distinct
    obtain ⟨d, r₁, more, added, completed, _⟩ := addGroups_cons_eq_ok ok
    have isAt_first := isAt first List.mem_cons_self
    have isAt_rest : ∀ e ∈ rest, Group.IsAt e.1 e.2 := fun e mem =>
      isAt e (List.mem_cons_of_mem _ mem)
    obtain ⟨isAt', _⟩ := keys_of_addGroup isAt_first added
    have bears : r₁.bears = r.bears ++ d.group.values := by rw [(addGroup_eq_ok added).2.2]
    rcases List.mem_cons.1 mem with rfl | later
    · -- The later groups belong to other sites, so `b` is a bear of this one.
      have notLater : b.site ∉ rest.map Prod.fst := site ▸ distinct.1
      have completes := completes_addGroups isAt_rest distinct.2 completed
      have there := (completes.mem_or_site isAt_rest here).resolve_right notLater
      have inGroup := (List.mem_append.1 (bears ▸ there)).resolve_left new
      obtain ⟨dependants, dependencies⟩ := lists_of_addGroups isAt_rest completed notLater
      rw [dependants, dependencies]
      exact kinds_of_addGroup isAt_first added inGroup alone free
    · have other : b.site ≠ first.1 := fun same =>
        distinct.1 ((site.symm.trans same) ▸ List.mem_map_of_mem later)
      obtain ⟨dependants, dependencies⟩ := lists_of_addGroup isAt_first added other
      refine ih isAt_rest distinct.2 completed later ?_ (dependants.trans alone)
        (dependencies.trans free)
      rw [bears, List.mem_append, not_or]
      exact ⟨new, fun there => other (isAt'.of_mem_values there).2⟩

/-- In a roster that was assembled, the kinds of the bears that wait on a bear and of those that it
waits on are those of the walk through the kinds of its site, in their order. -/
theorem kinds_of_assemble {nextId : Nat} {supplied : List (Bear w)} {said : List (Notice w)}
    {r : Roster w} (built : assemble nextId supplied = (said, .ok r)) {b : Bear w}
    (here : b ∈ r.bears) :
    (r.graph.dependantsOf b).map Bear.kindId =
        unlockedKinds ((kept supplied b.site).map Bear.kindId) b.kindId ∧
      (r.graph.dependenciesOf b).map Bear.kindId =
        awaitedKinds ((kept supplied b.site).map Bear.kindId) b.kindId := by
  have site := ((mem_bears_iff built).1 here).1
  rw [← keys_enlistAll] at site
  obtain ⟨g, found⟩ := OrderedMap.mem_keys_iff.1 site
  rw [← keys_of_enlistAll found]
  obtain ⟨_, ok⟩ := Prod.mk.inj built
  exact kinds_of_addGroups (fun _ => isAt_of_mem_enlistAll) (enlistAll .empty supplied).1.distinct
    (Prod.ext rfl ok) (OrderedMap.mem_entries_of_get? found) here rfl List.not_mem_nil rfl rfl

end Roster

end AnalysisScheduler
