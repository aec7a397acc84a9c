import AnalysisScheduler.Proofs.Collection.Distinct
import AnalysisScheduler.Proofs.Collection.OrderedMap
import AnalysisScheduler.Proofs.Graph.Closure
import AnalysisScheduler.Run.Session

/-!
# Rosters are sound

A roster that was assembled has one bear for each kind that a site needs, an edge exactly from each
bear's dependencies of its own site to the bear, and no endless chain of dependencies (`Sound`,
`sound_of_assemble`). Nothing that is said on the way is more than a debug notice
(`level_of_assemble`). `exists_roster_of_start` hands both on to the session.

A group is completed kind by kind in the order of the walk, where a kind comes after one that
depends on it (`Walk.Grounded`); so the bear of a kind is there when the kind's own dependencies
are made.
-/

namespace AnalysisScheduler

variable {w : Workspace}

/-- The bears of a group are bears of one site, each under its own kind. -/
def Group.IsAt (site : Site w) (g : Group w) : Prop :=
  ∀ k b, g.get? k = some b → b.kindId = k ∧ b.site = site

/-- A group knows each of its bears by its kind. -/
theorem Group.IsAt.of_mem_values {site : Site w} {g : Group w} (isAt : Group.IsAt site g)
    {b : Bear w} (here : b ∈ g.values) : g.get? b.kindId = some b ∧ b.site = site := by
  obtain ⟨k, found⟩ := OrderedMap.mem_values_iff.1 here
  obtain ⟨rfl, same⟩ := isAt k b found
  exact ⟨found, same⟩

theorem Bear.make_eq_ok {id : Nat} {k : KindId w} {site : Site w} {b : Bear w}
    (made : Bear.make id k site = .ok b) : b.kindId = k ∧ b.site = site := by
  unfold Bear.make at made
  split at made
  · cases made
    exact ⟨rfl, rfl⟩
  · cases made

theorem Bear.id_of_make {id : Nat} {k : KindId w} {site : Site w} {b : Bear w}
    (made : Bear.make id k site = .ok b) : b.id = id := by
  unfold Bear.make at made
  split at made
  · cases made
    rfl
  · cases made

theorem Bear.make_eq_error {id : Nat} {k : KindId w} {site : Site w} {e : SettingError}
    (failed : Bear.make id k site = .error e) : w.optionsOf k site = .error e := by
  unfold Bear.make at failed
  split at failed
  · cases failed
  · cases failed
    assumption

/-- A bear has the options that its site offers to its kind. -/
theorem Bear.optionsOf_eq (b : Bear w) : w.optionsOf b.kindId b.site = .ok b.options := by
  unfold Bear.options
  split
  · assumption
  · rename_i failed
    exact absurd b.equipped (by rw [failed]; exact Bool.noConfusion)

theorem Group.IsAt.insert {site : Site w} {g : Group w} (isAt : Group.IsAt site g) {k : KindId w}
    {b : Bear w} (kind : b.kindId = k) (here : b.site = site) :
    Group.IsAt site (OrderedMap.insert g k b) := by
  intro k' b' found
  rw [OrderedMap.get?_insert] at found
  split at found
  · rename_i same
    cases found
    exact ⟨kind.trans same.symm, here⟩
  · exact isAt k' b' found

namespace Roster

/-! ## Supplied bears -/

theorem isAt_enlist {groups : OrderedMap (Site w) (Group w)}
    (isAt : ∀ site g, groups.get? site = some g → Group.IsAt site g) (b : Bear w)
    {site : Site w} {g : Group w} (found : (enlist groups b).1.get? site = some g) :
    Group.IsAt site g := by
  have old : Group.IsAt b.site ((groups.get? b.site).getD .empty) := by
    cases h : groups.get? b.site with
    | none => exact fun _ _ found => nomatch found
    | some g' => exact isAt b.site g' h
  unfold enlist at found
  dsimp only at found
  split at found
  · exact isAt site g found
  · rw [OrderedMap.get?_insert] at found
    split at found
    · rename_i same
      cases found
      rw [same]
      exact old.insert rfl rfl
    · exact isAt site g found

theorem isAt_enlistAll (groups : OrderedMap (Site w) (Group w)) (bears : List (Bear w))
    (isAt : ∀ site g, groups.get? site = some g → Group.IsAt site g)
    {site : Site w} {g : Group w} (found : (enlistAll groups bears).1.get? site = some g) :
    Group.IsAt site g := by
  induction bears generalizing groups with
  | nil => exact isAt site g found
  | cons b rest ih => exact ih _ (fun site g => isAt_enlist isAt b) found

/-! ## Missing dependencies -/

/-- Making bears for a list of kinds adds exactly the kinds that were lacking, in their order. -/
theorem keys_mint {d d' : Draft w} {dependant : Bear w} {ks : List (KindId w)}
    (ok : d.mint dependant ks = (d', none)) (isAt : Group.IsAt dependant.site d.group) :
    Group.IsAt dependant.site d'.group ∧ d'.group.keys = ks.foldl appendNew d.group.keys := by
  fun_induction Draft.mint d dependant ks with
  | case1 d =>
    cases ok
    exact ⟨isAt, rfl⟩
  | case2 d k rest has ih =>
    rw [List.foldl_cons, appendNew_of_mem (OrderedMap.contains_iff.1 has)]
    exact ih ok isAt
  | case3 => cases ok
  | case4 d k rest _ made created d₁ ih =>
    obtain ⟨kind, here⟩ := Bear.make_eq_ok created
    obtain ⟨isAt', keys⟩ := ih ok (isAt.insert kind here)
    refine ⟨isAt', keys.trans ?_⟩
    rw [List.foldl_cons]
    exact congrArg (rest.foldl appendNew) (OrderedMap.keys_insert ..)

theorem successorsOf_kindGraph (k : KindId w) :
    Walk.successorsOf (kindGraph w) k = w.dependenciesOf k := by
  unfold Walk.successorsOf kindGraph
  rw [OrderedMap.get?_tabulate _ _ (List.mem_finRange k)]
  rfl

theorem leads_kindGraph {k k' : KindId w} :
    Walk.Leads (kindGraph w) k k' ↔ k' ∈ w.dependenciesOf k := by
  rw [Walk.Leads, successorsOf_kindGraph]

/-- Completing a group for kinds that come after those that depend on them adds exactly the
dependencies of these kinds, in the order in which they are first declared. -/
theorem keys_mintAll {site : Site w} {d d' : Draft w} {ks : List (KindId w)}
    (ok : d.mintAll ks = (d', none)) (isAt : Group.IsAt site d.group)
    (grounded : Walk.Grounded (kindGraph w) (· ∈ d.group.keys) ks) :
    Group.IsAt site d'.group ∧
      d'.group.keys = (ks.flatMap w.dependenciesOf).foldl appendNew d.group.keys := by
  fun_induction Draft.mintAll d ks with
  | case1 d =>
    cases ok
    exact ⟨isAt, rfl⟩
  | case2 d k rest missing ih =>
    exact absurd grounded.1 (OrderedMap.get?_eq_none_iff.1 missing)
  | case3 => cases ok
  | case4 d k rest dependant found d₁ minted ih =>
    have here := (isAt k dependant found).2
    obtain ⟨isAt₁, keys₁⟩ := keys_mint minted (here ▸ isAt)
    have grounded₁ : Walk.Grounded (kindGraph w) (· ∈ d₁.group.keys) rest := by
      refine grounded.2.mono fun y known => ?_
      rw [keys₁, mem_foldl_appendNew]
      exact known.imp_right leads_kindGraph.1
    obtain ⟨isAt', keys⟩ := ih ok (here ▸ isAt₁) grounded₁
    refine ⟨isAt', ?_⟩
    rw [keys, keys₁, List.flatMap_cons, List.foldl_append]

/-! ## Edges -/

theorem edge_connect {group : Group w} {graph : WaitGraph (Bear w)}
    {edge : KindId w × KindId w} {d b : Bear w} :
    (connect group graph edge).Edge d b ↔
      graph.Edge d b ∨ (group.get? edge.1 = some b ∧ group.get? edge.2 = some d) := by
  unfold connect
  split
  · rename_i dependant dependency h₁ h₂
    rw [WaitGraph.edge_add, h₁, h₂, Option.some.injEq, Option.some.injEq, and_comm]
    exact or_congr_right (and_congr eq_comm eq_comm)
  · rename_i missing
    exact (or_iff_left fun h => missing b d h.1 h.2).symm

theorem edge_foldl_connect {group : Group w} {graph : WaitGraph (Bear w)}
    {edges : List (KindId w × KindId w)} {d b : Bear w} :
    (edges.foldl (connect group) graph).Edge d b ↔
      graph.Edge d b ∨ ∃ e ∈ edges, group.get? e.1 = some b ∧ group.get? e.2 = some d := by
  induction edges generalizing graph with
  | nil => simp
  | cons e rest ih =>
    rw [List.foldl_cons, ih, edge_connect, or_assoc]
    simp only [List.mem_cons, exists_eq_or_imp]

/-! ## Sound rosters -/

/-- What a run relies on: bears are told apart by site and kind, they wait on exactly the bears of
their own site whose kinds they depend on, each dependency is there, and the waiting is founded. -/
structure Sound (r : Roster w) : Prop where
  nodup : r.bears.Nodup
  unique : ∀ a ∈ r.bears, ∀ b ∈ r.bears, a.site = b.site → a.kindId = b.kindId → a = b
  edge_iff : ∀ d b, r.graph.Edge d b ↔ d ∈ r.bears ∧ b ∈ r.bears ∧ d.site = b.site ∧
    d.kindId ∈ w.dependenciesOf b.kindId
  provided : ∀ b ∈ r.bears, ∀ k ∈ w.dependenciesOf b.kindId,
    ∃ d ∈ r.bears, d.site = b.site ∧ d.kindId = k
  founded : WellFounded r.graph.Edge

theorem sound_empty : (empty : Roster w).Sound where
  nodup := .nil
  unique _ h := absurd h List.not_mem_nil
  edge_iff _ _ := iff_of_false (WaitGraph.not_edge_empty _ _) fun h => absurd h.1 List.not_mem_nil
  provided _ h := absurd h List.not_mem_nil
  founded := ⟨fun _ => ⟨_, fun _ edge => absurd edge (WaitGraph.not_edge_empty _ _)⟩⟩

theorem addGroup_eq_ok {r r' : Roster w} {nextId : Nat} {group : Group w} {d : Draft w}
    (ok : r.addGroup nextId group = (d, .ok r')) :
    (walk (kindGraph w) group.keys).cycle = none ∧
      Draft.mintAll ⟨group, nextId, []⟩ (walk (kindGraph w) group.keys).entered = (d, none) ∧
      r' = ⟨r.bears ++ d.group.values,
        (walk (kindGraph w) group.keys).followed.foldl (connect d.group) r.graph⟩ := by
  unfold addGroup at ok
  dsimp only at ok
  split at ok
  · cases ok
  · cases ok
  · rename_i made clear
    cases ok
    exact ⟨clear, made, rfl⟩

/-- A completed group has exactly the kinds that its walk entered. -/
theorem keys_of_addGroup {r r' : Roster w} {nextId : Nat} {group : Group w} {d : Draft w}
    {site : Site w} (isAt : Group.IsAt site group)
    (ok : r.addGroup nextId group = (d, .ok r')) :
    Group.IsAt site d.group ∧
      ∀ k, k ∈ d.group.keys ↔ k ∈ (walk (kindGraph w) group.keys).entered := by
  obtain ⟨clear, made, _⟩ := addGroup_eq_ok ok
  obtain ⟨isAt', keys⟩ := keys_mintAll made isAt Walk.grounded_walk
  refine ⟨isAt', fun k => ?_⟩
  rw [keys, mem_foldl_appendNew, List.mem_flatMap]
  constructor
  · rintro (start | ⟨k', entered, needed⟩)
    · exact (Walk.mem_entered_walk clear).2 ⟨k, start, .refl⟩
    · obtain ⟨s, start, reach⟩ := (Walk.mem_entered_walk clear).1 entered
      exact (Walk.mem_entered_walk clear).2 ⟨s, start, reach.tail (leads_kindGraph.2 needed)⟩
  · intro entered
    obtain ⟨s, start, reach⟩ := (Walk.mem_entered_walk clear).1 entered
    rcases reach.cases_tail with rfl | ⟨k', reach, leads⟩
    · exact .inl start
    · exact .inr ⟨k', (Walk.mem_entered_walk clear).2 ⟨s, start, reach⟩, leads_kindGraph.1 leads⟩

/-- The edges of a completed group. -/
theorem edge_of_addGroup {r r' : Roster w} {nextId : Nat} {group : Group w} {d : Draft w}
    {site : Site w} (isAt : Group.IsAt site group) (ok : r.addGroup nextId group = (d, .ok r'))
    {a b : Bear w} :
    r'.graph.Edge a b ↔ r.graph.Edge a b ∨
      (a ∈ d.group.values ∧ b ∈ d.group.values ∧ a.kindId ∈ w.dependenciesOf b.kindId) := by
  obtain ⟨isAt', keys⟩ := keys_of_addGroup isAt ok
  obtain ⟨clear, _, rfl⟩ := addGroup_eq_ok ok
  refine edge_foldl_connect.trans (or_congr_right ?_)
  constructor
  · rintro ⟨⟨k, k'⟩, followed, hb, ha⟩
    obtain ⟨_, leads⟩ := (Walk.mem_followed_walk clear).1 followed
    refine ⟨OrderedMap.mem_values_iff.2 ⟨k', ha⟩, OrderedMap.mem_values_iff.2 ⟨k, hb⟩, ?_⟩
    rw [(isAt' k b hb).1, (isAt' k' a ha).1]
    exact leads_kindGraph.1 leads
  · rintro ⟨ha, hb, needed⟩
    obtain ⟨ha, _⟩ := isAt'.of_mem_values ha
    obtain ⟨hb, _⟩ := isAt'.of_mem_values hb
    have entered := (keys b.kindId).1 (OrderedMap.mem_keys_iff.2 ⟨b, hb⟩)
    exact ⟨(b.kindId, a.kindId),
      (Walk.mem_followed_walk clear).2 ⟨entered, leads_kindGraph.2 needed⟩, hb, ha⟩

theorem founded_addGroup {r r' : Roster w} {nextId : Nat} {group : Group w} {d : Draft w}
    {site : Site w} (sound : r.Sound) (isAt : Group.IsAt site group)
    (new : ∀ b ∈ r.bears, b.site ≠ site) (ok : r.addGroup nextId group = (d, .ok r')) :
    WellFounded r'.graph.Edge := by
  obtain ⟨isAt', keys⟩ := keys_of_addGroup isAt ok
  have clear := (addGroup_eq_ok ok).1
  have edges {a b : Bear w} := edge_of_addGroup isAt ok (a := a) (b := b)
  -- Among the bears of the group the edges follow the kinds, whose chains are finite.
  have made : ∀ k, Acc (fun y x => Walk.Leads (kindGraph w) x y) k →
      ∀ b, d.group.get? k = some b → Acc r'.graph.Edge b := by
    intro k acc
    induction acc with
    | intro k _ ih =>
      intro b hb
      refine ⟨b, fun a edge => ?_⟩
      rcases edges.1 edge with old | ⟨ha, _, needed⟩
      · have here := (isAt' k b hb).2
        exact absurd here (new b ((sound.edge_iff a b).1 old).2.1)
      · rw [(isAt' k b hb).1] at needed
        exact ih a.kindId (leads_kindGraph.2 needed) a (isAt'.of_mem_values ha).1
  -- Edges to the other bears are those that were there before.
  have kept : ∀ b, (∀ k, d.group.get? k ≠ some b) → Acc r'.graph.Edge b := by
    intro b
    induction b using sound.founded.induction with
    | _ b ih =>
      intro outside
      refine ⟨b, fun a edge => ?_⟩
      rcases edges.1 edge with old | ⟨_, hb, _⟩
      · refine ih a old fun k ha => ?_
        exact new a ((sound.edge_iff a b).1 old).1 (isAt' k a ha).2
      · exact absurd (isAt'.of_mem_values hb).1 (outside b.kindId)
  refine ⟨fun b => ?_⟩
  by_cases h : ∃ k, d.group.get? k = some b
  · obtain ⟨k, hb⟩ := h
    have entered := (keys k).1 (OrderedMap.mem_keys_iff.2 ⟨b, hb⟩)
    exact made k (Walk.acc_walk clear entered) b hb
  · exact kept b (not_exists.1 h)

/-- A group of a new site keeps a roster sound. -/
theorem Sound.addGroup {r r' : Roster w} {nextId : Nat} {group : Group w} {d : Draft w}
    {site : Site w} (sound : r.Sound) (isAt : Group.IsAt site group)
    (new : ∀ b ∈ r.bears, b.site ≠ site) (ok : r.addGroup nextId group = (d, .ok r')) :
    r'.Sound ∧ ∀ b ∈ r'.bears, b ∈ r.bears ∨ b.site = site := by
  obtain ⟨isAt', keys⟩ := keys_of_addGroup isAt ok
  obtain ⟨clear, _, eq⟩ := addGroup_eq_ok ok
  have bears : r'.bears = r.bears ++ d.group.values := by rw [eq]
  have mem {b : Bear w} : b ∈ r'.bears ↔ b ∈ r.bears ∨ b ∈ d.group.values := by
    rw [bears, List.mem_append]
  have here : ∀ b ∈ d.group.values, b.site = site := fun b hb => (isAt'.of_mem_values hb).2
  have apart : ∀ a ∈ r.bears, ∀ b ∈ d.group.values, a.site ≠ b.site := fun a ha b hb same =>
    new a ha (same.trans (here b hb))
  refine ⟨{ nodup := ?_, unique := ?_, edge_iff := ?_, provided := ?_, founded := ?_ }, ?_⟩
  · rw [bears, List.nodup_append]
    refine ⟨sound.nodup, OrderedMap.nodup_values fun k b hb => (isAt' k b hb).1, ?_⟩
    exact fun a ha b hb same => apart a ha b hb (congrArg Bear.site same)
  · intro a ha b hb site kind
    rcases mem.1 ha with ha | ha <;> rcases mem.1 hb with hb | hb
    · exact sound.unique a ha b hb site kind
    · exact absurd site (apart a ha b hb)
    · exact absurd site.symm (apart b hb a ha)
    · have found := (isAt'.of_mem_values ha).1
      rw [kind, (isAt'.of_mem_values hb).1] at found
      exact (Option.some.inj found).symm
  · intro a b
    rw [edge_of_addGroup isAt ok, sound.edge_iff, mem, mem]
    constructor
    · rintro (⟨ha, hb, site, needed⟩ | ⟨ha, hb, needed⟩)
      · exact ⟨.inl ha, .inl hb, site, needed⟩
      · exact ⟨.inr ha, .inr hb, (here a ha).trans (here b hb).symm, needed⟩
    · rintro ⟨ha | ha, hb | hb, site, needed⟩
      · exact .inl ⟨ha, hb, site, needed⟩
      · exact absurd site (apart a ha b hb)
      · exact absurd site.symm (apart b hb a ha)
      · exact .inr ⟨ha, hb, needed⟩
  · intro b hb k needed
    rcases mem.1 hb with hb | hb
    · obtain ⟨a, ha, site, kind⟩ := sound.provided b hb k needed
      exact ⟨a, mem.2 (.inl ha), site, kind⟩
    · obtain ⟨found, at_b⟩ := isAt'.of_mem_values hb
      have entered := (keys b.kindId).1 (OrderedMap.mem_keys_iff.2 ⟨b, found⟩)
      obtain ⟨s, start, reach⟩ := (Walk.mem_entered_walk clear).1 entered
      have reached := (Walk.mem_entered_walk clear).2
        ⟨s, start, reach.tail (leads_kindGraph.2 needed)⟩
      obtain ⟨a, ha⟩ := OrderedMap.mem_keys_iff.1 ((keys k).2 reached)
      obtain ⟨kind, at_a⟩ := isAt' k a ha
      exact ⟨a, mem.2 (.inr (OrderedMap.mem_values_iff.2 ⟨k, ha⟩)), at_a.trans at_b.symm, kind⟩
  · exact founded_addGroup sound isAt new ok
  · exact fun b hb => (mem.1 hb).imp_right (here b)

/-- Groups are added one after another. -/
theorem addGroups_cons_eq_ok {r r' : Roster w} {nextId : Nat} {group : Group w}
    {rest : List (Group w)} {said : List (Notice w)}
    (ok : r.addGroups nextId (group :: rest) = (said, .ok r')) :
    ∃ d r₁ more, r.addGroup nextId group = (d, .ok r₁) ∧
      r₁.addGroups d.nextId rest = (more, .ok r') ∧ said = d.notices ++ more := by
  rw [addGroups] at ok
  split at ok
  · cases ok
  · rename_i d r₁ added
    obtain ⟨rfl, completed⟩ := Prod.mk.inj ok
    exact ⟨d, r₁, _, added, Prod.ext rfl completed, rfl⟩

theorem Sound.addGroups {r r' : Roster w} {nextId : Nat} {entries : List (Site w × Group w)}
    {said : List (Notice w)} (sound : r.Sound)
    (isAt : ∀ e ∈ entries, Group.IsAt e.1 e.2) (distinct : (entries.map Prod.fst).Nodup)
    (new : ∀ b ∈ r.bears, b.site ∉ entries.map Prod.fst)
    (ok : r.addGroups nextId (entries.map Prod.snd) = (said, .ok r')) : r'.Sound := by
  induction entries generalizing r nextId said with
  | nil =>
    cases ok
    exact sound
  | cons e rest ih =>
    rw [List.map_cons, List.nodup_cons] at distinct
    obtain ⟨d, r₁, more, added, completed, _⟩ := addGroups_cons_eq_ok ok
    obtain ⟨sound₁, bears⟩ := sound.addGroup (isAt e List.mem_cons_self)
      (fun b hb same => new b hb (same ▸ List.mem_cons_self)) added
    refine ih sound₁ (fun e' he => isAt e' (List.mem_cons_of_mem _ he)) distinct.2 ?_ completed
    intro b hb
    rcases bears b hb with old | same
    · exact fun mem => new b old (List.mem_cons_of_mem _ mem)
    · exact same ▸ distinct.1

/-- A roster that was assembled is sound. -/
theorem sound_of_assemble {nextId : Nat} {supplied : List (Bear w)} {r : Roster w}
    (ok : (assemble nextId supplied).2 = .ok r) : r.Sound := by
  have isAt : ∀ e ∈ (enlistAll .empty supplied).1.entries, Group.IsAt e.1 e.2 := fun e he =>
    isAt_enlistAll .empty supplied (fun _ _ found => nomatch found)
      (OrderedMap.get?_eq_some_iff.2 he)
  exact sound_empty.addGroups isAt (enlistAll .empty supplied).1.distinct
    (fun _ h => absurd h List.not_mem_nil) (Prod.ext rfl ok)

/-- The entry points are the bears that no edge leads to. -/
theorem mem_entryPoints {r : Roster w} {b : Bear w} :
    b ∈ r.entryPoints ↔ b ∈ r.bears ∧ ∀ d, ¬ r.graph.Edge d b := by
  simp only [entryPoints, List.mem_filter, Bool.not_eq_true', ← Bool.not_eq_true]
  rw [WaitGraph.isWaiting_iff, not_exists]

/-! ## What is said -/

theorem level_of_enlist {groups : OrderedMap (Site w) (Group w)} {b : Bear w} :
    ∀ n ∈ (enlist groups b).2, n.level = .debug := by
  intro n mem
  unfold enlist at mem
  dsimp only at mem
  split at mem
  · split at mem
    · exact absurd mem List.not_mem_nil
    · rw [List.mem_singleton.1 mem]
      rfl
  · exact absurd mem List.not_mem_nil

theorem level_of_enlistAll {groups : OrderedMap (Site w) (Group w)} {bears : List (Bear w)} :
    ∀ n ∈ (enlistAll groups bears).2, n.level = .debug := by
  induction bears generalizing groups with
  | nil => exact fun _ h => absurd h List.not_mem_nil
  | cons b rest ih =>
    intro n mem
    rcases List.mem_append.1 mem with mem | mem
    · exact level_of_enlist n mem
    · exact ih n mem

theorem level_of_mint {d : Draft w} (dependant : Bear w) (ks : List (KindId w))
    (quiet : ∀ n ∈ d.notices, n.level = .debug) :
    ∀ n ∈ (d.mint dependant ks).1.notices, n.level = .debug := by
  fun_induction Draft.mint d dependant ks with
  | case1 => exact quiet
  | case2 d k rest has ih => exact ih quiet
  | case3 => exact quiet
  | case4 d k rest _ made created d₁ ih =>
    refine ih fun n mem => ?_
    rcases List.mem_append.1 mem with mem | mem
    · exact quiet n mem
    · rw [List.mem_singleton.1 mem]
      rfl

theorem level_of_mintAll {d : Draft w} (ks : List (KindId w))
    (quiet : ∀ n ∈ d.notices, n.level = .debug) :
    ∀ n ∈ (d.mintAll ks).1.notices, n.level = .debug := by
  fun_induction Draft.mintAll d ks with
  | case1 => exact quiet
  | case2 d k rest missing ih => exact ih quiet
  | case3 d k rest dependant found d₁ e minted =>
    have said := level_of_mint dependant (w.dependenciesOf k) quiet
    rwa [minted] at said
  | case4 d k rest dependant found d₁ minted ih =>
    have said := level_of_mint dependant (w.dependenciesOf k) quiet
    rw [minted] at said
    exact ih said

theorem level_of_addGroup (r : Roster w) (nextId : Nat) (group : Group w) :
    ∀ n ∈ (r.addGroup nextId group).1.notices, n.level = .debug := by
  have quiet := level_of_mintAll (d := ⟨group, nextId, []⟩)
    (walk (kindGraph w) group.keys).entered fun _ h => absurd h List.not_mem_nil
  unfold addGroup
  dsimp only
  split
  · rename_i failed
    rwa [failed] at quiet
  · rename_i made _
    rwa [made] at quiet
  · rename_i made _
    rwa [made] at quiet

theorem level_of_addGroups {r : Roster w} {nextId : Nat} {groups : List (Group w)} :
    ∀ n ∈ (r.addGroups nextId groups).1, n.level = .debug := by
  induction groups generalizing r nextId with
  | nil => exact fun _ h => absurd h List.not_mem_nil
  | cons group rest ih =>
    have first := level_of_addGroup r nextId group
    unfold addGroups
    split
    · rename_i added
      rwa [added] at first
    · rename_i d r' added
      rw [added] at first
      intro n mem
      rcases List.mem_append.1 mem with mem | mem
      · exact first n mem
      · exact ih n mem

/-- Assembling a roster says nothing that matters more than a debug notice. -/
theorem level_of_assemble (nextId : Nat) (supplied : List (Bear w)) :
    ∀ n ∈ (assemble nextId supplied).1, n.level = .debug := by
  intro n mem
  rcases List.mem_append.1 mem with mem | mem
  · exact level_of_enlistAll n mem
  · exact level_of_addGroups n mem

end Roster

/-- A session is that of the roster that was assembled for it. -/
theorem Session.exists_assemble_of_start {ρ : Type} {nextId : Nat} {supplied : List (Bear w)}
    {s : Session w ρ} (built : (Session.start nextId supplied).2 = .ok s) :
    ∃ roster said, s = .ofRoster supplied roster said ∧
      Roster.assemble nextId supplied = (said, .ok roster) := by
  unfold Session.start at built
  split at built
  · cases built
  · rename_i said roster assembled
    cases built
    exact ⟨roster, said, rfl, assembled⟩

/-- Its roster is sound, and it begins with debug notices only. -/
theorem Session.exists_roster_of_start {ρ : Type} {nextId : Nat} {supplied : List (Bear w)}
    {s : Session w ρ} (built : (Session.start nextId supplied).2 = .ok s) :
    ∃ roster said, s = .ofRoster supplied roster said ∧ roster.Sound ∧
      ∀ n ∈ said, n.level = .debug := by
  obtain ⟨roster, said, rfl, assembled⟩ := exists_assemble_of_start built
  have sound := Roster.sound_of_assemble (congrArg Prod.snd assembled)
  refine ⟨roster, said, rfl, sound, fun n mem => ?_⟩
  have quiet := Roster.level_of_assemble nextId supplied n
  rw [assembled] at quiet
  exact quiet mem

theorem Session.level_of_ofRoster {ρ : Type} {supplied : List (Bear w)} {r : Roster w}
    {said : List (Notice w)} (debug : ∀ n ∈ said, n.level = .debug) {e : Event w ρ}
    (mem : e ∈ (Session.ofRoster supplied r said : Session w ρ).history) :
    ∃ n, e = .noticed n ∧ n.level = .debug := by
  obtain ⟨n, found, rfl⟩ := List.mem_map.1 mem
  refine ⟨n, rfl, ?_⟩
  rcases List.mem_append.1 found with old | last
  · exact debug n old
  · rw [List.mem_singleton.1 last]
    rfl

/-- Nothing that is said before a session runs is more than a debug notice. -/
theorem Session.level_of_start {ρ : Type} {nextId : Nat} {supplied : List (Bear w)}
    {e : Event w ρ} (mem : e ∈ (Session.start nextId supplied).1) :
    ∃ n, e = .noticed n ∧ n.level = .debug := by
  have quiet := Roster.level_of_assemble nextId supplied
  unfold Session.start at mem
  split at mem
  · rename_i said error refused
    rw [refused] at quiet
    obtain ⟨n, found, rfl⟩ := List.mem_map.1 mem
    exact ⟨n, rfl, quiet n found⟩
  · rename_i said r assembled
    rw [assembled] at quiet
    exact level_of_ofRoster quiet mem

end AnalysisScheduler
