import AnalysisScheduler.Proofs.Graph.Obstacles
import AnalysisScheduler.Proofs.Roster.Assembly

/-!
# Completing a group bear by bear

A group can be completed while a walk goes through its bears: a bear that is met for the first time
gets the bears that it depends on, which are made where the group lacks them, and each edge that
the walk follows is put into the graph before the walk goes on (`Roster.explore`). This comes to the
same as walking through the kinds first and making bears and edges along the trail: the same bears
are made under the same numbers and told by the same notices, the walk fails for the same reason,
and otherwise the graph is the same (`Roster.exploreGroup_eq`). So the roster of all supplied bears
comes out the same as well (`Roster.exploreAll_eq`).

The two walks go in step as long as the group knows all the bears that the walk deals with by their
kinds (`Draft.Covers`).
-/

namespace AnalysisScheduler

variable {w : Workspace}

/-- A group has a bear as the bear of its kind. -/
def Group.Has (g : Group w) (b : Bear w) : Prop := g.get? b.kindId = some b

namespace Group

variable {g : Group w} {b : Bear w} {bears : List (Bear w)}

/-- Bears of a group are told apart by their kinds. -/
theorem Has.eq_of_kindId {a : Bear w} (has : g.Has a) (has' : g.Has b)
    (same : a.kindId = b.kindId) : a = b := by
  rw [Has, same, has'] at has
  exact (Option.some.inj has).symm

theorem mem_map_kindId_iff (mine : ∀ a ∈ bears, g.Has a) (has : g.Has b) :
    b.kindId ∈ bears.map Bear.kindId ↔ b ∈ bears := by
  refine ⟨fun mem => ?_, List.mem_map_of_mem⟩
  obtain ⟨a, here, same⟩ := List.mem_map.1 mem
  exact (mine a here).eq_of_kindId has same ▸ here

theorem filterMap_get?_map_kindId (mine : ∀ a ∈ bears, g.Has a) :
    (bears.map Bear.kindId).filterMap g.get? = bears := by
  rw [List.filterMap_map]
  exact (List.filterMap_congr mine).trans List.filterMap_some

end Group

namespace Walk

/-- An errand between the images of nodes. -/
def Errand.map {α : Type u} {β : Type v} (f : α → β) : Errand α → Errand β
  | .visit via n => .visit (via.map f) (f n)
  | .leave => .leave

variable {α : Type u} {β : Type v} [DecidableEq α] [DecidableEq β]

/-- A cycle is found at the same place in an image of the path in which `n` keeps its own place. -/
theorem cycleAt_map {f : α → β} {path : List α} {n : α} (apart : ∀ m ∈ path, f m = f n → m = n) :
    cycleAt (path.map f) (f n) = (cycleAt path n).map f := by
  have before : (path.map f).takeWhile (· ≠ f n) = (path.takeWhile (· ≠ n)).map f := by
    induction path with
    | nil => rfl
    | cons m path ih =>
      obtain ⟨first, later⟩ := List.forall_mem_cons.1 apart
      by_cases same : m = n
      · rw [same, List.map_cons, List.takeWhile_cons_of_neg (by simp),
          List.takeWhile_cons_of_neg (by simp), List.map_nil]
      · rw [List.map_cons, List.takeWhile_cons_of_pos (by simpa using mt first same),
          List.takeWhile_cons_of_pos (by simpa using same), List.map_cons, ih later]
  rw [cycleAt, before, cycleAt, List.map_cons, List.map_append, List.map_reverse]
  rfl

end Walk

namespace Roster

/-! ## Bears on demand -/

/-- The bears of those kinds, one by one; what the group lacks is made for `dependant`. -/
def Draft.supply (d : Draft w) (dependant : Bear w) :
    List (KindId w) → Draft w × Except SettingError (List (Bear w))
  | [] => (d, .ok [])
  | k :: rest =>
    match d.group.get? k with
    | some b =>
      let (d, bears) := d.supply dependant rest
      (d, bears.map (b :: ·))
    | none =>
      match Bear.make d.nextId k dependant.site with
      | .error e => (d, .error e)
      | .ok made =>
        let d : Draft w :=
          ⟨d.group.insert k made, d.nextId + 1, d.notices ++ [.minted made dependant]⟩
        let (d, bears) := d.supply dependant rest
        (d, bears.map (made :: ·))

/-- What a group has it keeps. -/
theorem Draft.Grows.get? {site : Site w} {d d' : Draft w} {made : List (Bear w)}
    (grows : Draft.Grows site d d' made) {k : KindId w} {b : Bear w}
    (found : d.group.get? k = some b) : d'.group.get? k = some b := by
  rw [OrderedMap.get?_eq_some_iff] at found ⊢
  rw [grows.entries]
  exact List.mem_append_left _ found

theorem Draft.get?_mint {d : Draft w} {k : KindId w} {b : Bear w}
    (found : d.group.get? k = some b) (dependant : Bear w) (ks : List (KindId w)) :
    (d.mint dependant ks).1.group.get? k = some b := by
  obtain ⟨made, grows⟩ := grows_mint d dependant ks
  exact grows.get? found

/-- Making all bears first and collecting them then comes to the same. -/
theorem Draft.supply_eq (d : Draft w) (dependant : Bear w) (ks : List (KindId w)) :
    d.supply dependant ks = ((d.mint dependant ks).1,
      match (d.mint dependant ks).2 with
      | some e => .error e
      | none => .ok (ks.filterMap (d.mint dependant ks).1.group.get?)) := by
  fun_induction Draft.mint d dependant ks with
  | case1 d => rfl
  | case2 d k rest has ih =>
    obtain ⟨b, found⟩ := OrderedMap.mem_keys_iff.1 (OrderedMap.contains_iff.1 has)
    rw [supply, found]
    dsimp only
    rw [ih, List.filterMap_cons, get?_mint found dependant rest]
    cases (d.mint dependant rest).2 <;> rfl
  | case3 d k rest lacks e failed =>
    have missing := OrderedMap.get?_eq_none_iff.2 (mt OrderedMap.contains_iff.2 lacks)
    rw [supply, missing]
    dsimp only
    rw [failed]
  | case4 d k rest lacks made created d₁ ih =>
    have missing := OrderedMap.get?_eq_none_iff.2 (mt OrderedMap.contains_iff.2 lacks)
    have found : d₁.group.get? k = some made := by
      rw [OrderedMap.get?_insert, if_pos rfl]
    rw [supply, missing]
    dsimp only
    rw [created]
    dsimp only
    rw [ih, List.filterMap_cons, get?_mint found dependant rest]
    cases (d₁.mint dependant rest).2 <;> rfl

theorem Draft.mint_of_supply_error {d d' : Draft w} {dependant : Bear w} {ks : List (KindId w)}
    {e : SettingError} (failed : d.supply dependant ks = (d', .error e)) :
    d.mint dependant ks = (d', some e) := by
  rw [supply_eq] at failed
  cases minted : d.mint dependant ks with
  | mk d₁ failure =>
    rw [minted] at failed
    cases failure with
    | none => cases failed
    | some e' =>
      cases failed
      rfl

/-- The bears that are supplied are of the kinds that were asked for, and the group has them. -/
theorem Draft.mint_of_supply_ok {d d' : Draft w} {dependant : Bear w} {ks : List (KindId w)}
    {bears : List (Bear w)} (ok : d.supply dependant ks = (d', .ok bears))
    (isAt : Group.IsAt dependant.site d.group) :
    d.mint dependant ks = (d', none) ∧ bears.map Bear.kindId = ks ∧
      ∀ b ∈ bears, d'.group.Has b := by
  rw [supply_eq] at ok
  cases minted : d.mint dependant ks with
  | mk d₁ failure =>
    rw [minted] at ok
    cases failure with
    | some e => cases ok
    | none =>
      cases ok
      obtain ⟨isAt', keys⟩ := keys_mint minted isAt
      refine ⟨rfl, map_kindId_filterMap_get? isAt' fun k mem => ?_, fun b mem => ?_⟩
      · rw [keys, mem_foldl_appendNew]
        exact .inr mem
      · obtain ⟨k, -, found⟩ := List.mem_filterMap.1 mem
        rw [Group.Has, (isAt' k b found).1]
        exact found

/-! ## The walk through the bears -/

/-- The errands from a bear that has just been entered to those that it depends on, then the way
back. -/
def errandsTo (b : Bear w) (bears : List (Bear w)) : List (Walk.Errand (Bear w)) :=
  bears.map (.visit (some b)) ++ [.leave]

/-- The group knows all the bears that a walk deals with. -/
structure Draft.Covers (site : Site w) (d : Draft w) (visited path : List (Bear w))
    (errands : List (Walk.Errand (Bear w))) : Prop where
  isAt : Group.IsAt site d.group
  visited : ∀ b ∈ visited, d.group.Has b
  path : ∀ b ∈ path, d.group.Has b
  errands : ∀ via b, .visit via b ∈ errands →
    d.group.Has b ∧ ∀ a, via = some a → d.group.Has a

namespace Draft.Covers

variable {site : Site w} {d d' : Draft w} {visited path bears : List (Bear w)} {b : Bear w}
  {via : Option (Bear w)} {rest : List (Walk.Errand (Bear w))}

theorem start (isAt : Group.IsAt site d.group) :
    d.Covers site [] [] (d.group.values.map (.visit none)) where
  isAt := isAt
  visited := nofun
  path := nofun
  errands via b mem := by
    obtain ⟨b, here, same⟩ := List.mem_map.1 mem
    cases same
    exact ⟨(isAt.of_mem_values here).1, nofun⟩

theorem leave (covers : d.Covers site visited path (.leave :: rest)) :
    d.Covers site visited path.tail rest where
  isAt := covers.isAt
  visited := covers.visited
  path b mem := covers.path b (List.mem_of_mem_tail mem)
  errands via b mem := covers.errands via b (List.mem_cons_of_mem _ mem)

theorem here (covers : d.Covers site visited path (.visit via b :: rest)) :
    d.group.Has b ∧ ∀ a, via = some a → d.group.Has a :=
  covers.errands via b List.mem_cons_self

theorem pass (covers : d.Covers site visited path (.visit via b :: rest)) :
    d.Covers site visited path rest where
  isAt := covers.isAt
  visited := covers.visited
  path := covers.path
  errands via b mem := covers.errands via b (List.mem_cons_of_mem _ mem)

theorem mem_path_iff (covers : d.Covers site visited path (.visit via b :: rest)) :
    b.kindId ∈ path.map Bear.kindId ↔ b ∈ path :=
  Group.mem_map_kindId_iff covers.path covers.here.1

theorem mem_visited_iff (covers : d.Covers site visited path (.visit via b :: rest)) :
    b.kindId ∈ visited.map Bear.kindId ↔ b ∈ visited :=
  Group.mem_map_kindId_iff covers.visited covers.here.1

theorem isAt_site (covers : d.Covers site visited path (.visit via b :: rest)) :
    Group.IsAt b.site d.group :=
  (covers.isAt b.kindId b covers.here.1).2 ▸ covers.isAt

theorem enter (covers : d.Covers site visited path (.visit via b :: rest))
    (ok : d.supply b (w.dependenciesOf b.kindId) = (d', .ok bears)) :
    d'.Covers site (b :: visited) (b :: path) (errandsTo b bears ++ rest) := by
  obtain ⟨minted, -, supplied⟩ := mint_of_supply_ok ok covers.isAt_site
  obtain ⟨made, grows⟩ := grows_mint d b (w.dependenciesOf b.kindId)
  rw [minted, (covers.isAt b.kindId b covers.here.1).2] at grows
  have has : d'.group.Has b := grows.get? covers.here.1
  refine {
    isAt := grows.isAt covers.isAt
    visited := List.forall_mem_cons.2 ⟨has, fun a mem => grows.get? (covers.visited a mem)⟩
    path := List.forall_mem_cons.2 ⟨has, fun a mem => grows.get? (covers.path a mem)⟩
    errands := fun via' b' mem => ?_ }
  rcases List.mem_append.1 mem with new | old
  · have visit := (List.mem_append.1 new).resolve_right (by simp)
    obtain ⟨b', mem, same⟩ := List.mem_map.1 visit
    cases same
    exact ⟨supplied b' mem, fun a same => Option.some.inj same ▸ has⟩
  · obtain ⟨target, source⟩ := covers.pass.errands via' b' old
    exact ⟨grows.get? target, fun a same => grows.get? (source a same)⟩

/-- The errands of a bear that was entered are those of its kind. -/
theorem map_errands (covers : d.Covers site visited path (.visit via b :: rest))
    (ok : d.supply b (w.dependenciesOf b.kindId) = (d', .ok bears)) :
    (errandsTo b bears ++ rest).map (Walk.Errand.map Bear.kindId) =
      Walk.errandsFrom (kindGraph w) b.kindId ++ rest.map (Walk.Errand.map Bear.kindId) := by
  obtain ⟨-, kinds, -⟩ := mint_of_supply_ok ok covers.isAt_site
  rw [Walk.errandsFrom, successorsOf_kindGraph, ← kinds, errandsTo, List.map_append,
    List.map_append, List.map_map, List.map_map]
  rfl

end Draft.Covers

/-- Lets the bear at the start of an edge wait on the bear at its end; nothing waits on a start. -/
def arrive (graph : WaitGraph (Bear w)) (via : Option (Bear w)) (b : Bear w) :
    WaitGraph (Bear w) := via.elim graph (graph.add b ·)

/-- Walks through the bears of a group and completes it on the way: each edge that is followed goes
into the graph, and a bear that is entered is supplied with the bears that it depends on. The group
grows under the walk, which ends nonetheless: the kinds of the bears that are met are finitely
many. -/
def explore {site : Site w} (d : Draft w) (graph : WaitGraph (Bear w))
    (visited path : List (Bear w)) : (errands : List (Walk.Errand (Bear w))) →
      d.Covers site visited path errands →
      Draft w × Except (SetupError (Bear w)) (WaitGraph (Bear w))
  | [], _ => (d, .ok graph)
  | .leave :: rest, covers => explore d graph visited path.tail rest covers.leave
  | .visit via b :: rest, covers =>
    if b ∈ path then
      (d, .error (.circular ⟨Walk.cycleAt path b⟩))
    else if b ∈ visited then
      explore d (arrive graph via b) visited path rest covers.pass
    else
      match supplied : d.supply b (w.dependenciesOf b.kindId) with
      | (d', .error e) => (d', .error (.setting e))
      | (d', .ok bears) =>
        explore d' (arrive graph via b) (b :: visited) (b :: path) (errandsTo b bears ++ rest)
          (covers.enter supplied)
termination_by errands =>
  Walk.cost (kindGraph w) (visited.map Bear.kindId) (errands.map (Walk.Errand.map Bear.kindId))
decreasing_by
  · simp only [Walk.cost, List.map_cons, Walk.Errand.map, Walk.errandCost]
    omega
  · simp only [Walk.cost, List.map_cons, Walk.Errand.map, Walk.errandCost]
    omega
  · have unseen := mt covers.mem_visited_iff.1 ‹b ∉ visited›
    have paid := Walk.unvisitedCost_cons_add_le (kindGraph w) unseen
    rw [covers.map_errands supplied]
    simp only [Walk.cost, List.map_cons, Walk.Errand.map, Walk.errandCost,
      Walk.errandCost_errandsFrom_append]
    omega

/-! ## Both walks in step -/

/-- What becomes of a group along a trail through the kinds: first all bears are made, then they are
connected. -/
def Draft.along (d : Draft w) (graph : WaitGraph (Bear w)) (trail : Trail (KindId w)) :
    Draft w × Except (SetupError (Bear w)) (WaitGraph (Bear w)) :=
  match d.mintAll trail.entered, trail.cycle with
  | (d', some e), _ => (d', .error (.setting e))
  | (d', none), some cycle => (d', .error (.circular ⟨cycle.filterMap d'.group.get?⟩))
  | (d', none), none => (d', .ok (trail.followed.foldl (connect d'.group) graph))

namespace Draft

variable {site : Site w} {d d' : Draft w} {graph : WaitGraph (Bear w)} {b : Bear w}

/-- An edge can be put into the graph when it is followed or in the end: both of its bears are there
already. -/
theorem along_after_edge {via : Option (Bear w)} (isAt : Group.IsAt site d.group)
    (has : d.group.Has b ∧ ∀ a, via = some a → d.group.Has a) (trail : Trail (KindId w)) :
    d.along graph
        (trail.after ((via.map Bear.kindId).toList.map (WalkStep.follow · b.kindId))) =
      d.along (arrive graph via b) trail := by
  cases via with
  | none => rfl
  | some a =>
    obtain ⟨made, grows⟩ := grows_mintAll d trail.entered isAt
    have edge : connect (d.mintAll trail.entered).1.group graph (a.kindId, b.kindId) =
        graph.add b a := by
      rw [connect, grows.get? has.1, grows.get? (has.2 a rfl)]
    unfold along
    rw [Trail.entered_after_edge, Trail.followed_after_edge]
    cases minted : d.mintAll trail.entered with
    | mk d₁ failure =>
      rw [minted] at edge
      cases failure with
      | some e => rfl
      | none =>
        dsimp only [Trail.after]
        cases trail.cycle with
        | some cycle => rfl
        | none =>
          exact congrArg
            (fun graph => (d₁, Except.ok (trail.followed.foldl (connect d₁.group) graph))) edge

theorem along_after_enter (has : d.group.Has b)
    (minted : d.mint b (w.dependenciesOf b.kindId) = (d', none)) (trail : Trail (KindId w)) :
    d.along graph (trail.after [.enter b.kindId]) = d'.along graph trail := by
  have first : d.mintAll (trail.after [.enter b.kindId]).entered = d'.mintAll trail.entered := by
    show d.mintAll (b.kindId :: trail.entered) = _
    rw [mintAll, has]
    dsimp only
    rw [minted]
  unfold along
  rw [first]
  rfl

theorem along_after_refused (has : d.group.Has b) {e : SettingError}
    (refused : d.mint b (w.dependenciesOf b.kindId) = (d', some e)) (trail : Trail (KindId w)) :
    d.along graph (trail.after [.enter b.kindId]) = (d', .error (.setting e)) := by
  have first : d.mintAll (trail.after [.enter b.kindId]).entered = (d', some e) := by
    show d.mintAll (b.kindId :: trail.entered) = _
    rw [mintAll, has]
    dsimp only
    rw [refused]
  unfold along
  rw [first]

/-- A walk that comes back to a bear of its path ends there, with the bears from that one on. -/
theorem along_at_cycle {path : List (Bear w)} (mine : ∀ a ∈ path, d.group.Has a)
    (has : d.group.Has b) (via : Option (Bear w)) :
    d.along graph ⟨(via.map Bear.kindId).toList.map (WalkStep.follow · b.kindId),
        some (Walk.cycleAt (path.map Bear.kindId) b.kindId)⟩ =
      (d, .error (.circular ⟨Walk.cycleAt path b⟩)) := by
  have around : ∀ a ∈ Walk.cycleAt path b, d.group.Has a := by
    intro a mem
    rw [Walk.cycleAt, List.mem_cons, List.mem_append, List.mem_reverse, List.mem_singleton] at mem
    rcases mem with rfl | onPath | rfl
    · exact has
    · exact mine a (List.takeWhile_subset _ onPath)
    · exact has
  have kinds : Walk.cycleAt (path.map Bear.kindId) b.kindId =
      (Walk.cycleAt path b).map Bear.kindId :=
    Walk.cycleAt_map fun a mem same => (mine a mem).eq_of_kindId has same
  unfold along
  have entersNone : Trail.entered ⟨(via.map Bear.kindId).toList.map (WalkStep.follow · b.kindId),
      some (Walk.cycleAt (path.map Bear.kindId) b.kindId)⟩ = [] := by cases via <;> rfl
  rw [entersNone, mintAll]
  dsimp only
  rw [kinds, Group.filterMap_get?_map_kindId around]

end Draft

/-- The walk through the bears goes like the walk through their kinds. -/
theorem explore_eq {site : Site w} {d : Draft w} {graph : WaitGraph (Bear w)}
    {visited path : List (Bear w)} {errands : List (Walk.Errand (Bear w))}
    (covers : d.Covers site visited path errands) :
    explore d graph visited path errands covers =
      d.along graph (Walk.run (kindGraph w) (visited.map Bear.kindId) (path.map Bear.kindId)
        (errands.map (Walk.Errand.map Bear.kindId))) := by
  fun_induction explore d graph visited path errands covers with
  | case1 d graph visited path =>
    rw [List.map_nil, Walk.run]
    rfl
  | case2 d graph visited path rest covers _ ih =>
    rw [ih, List.map_cons, Walk.Errand.map, Walk.run, List.map_tail]
  | case3 d graph visited path via b rest covers onPath =>
    rw [List.map_cons, Walk.Errand.map, Walk.run, if_pos (covers.mem_path_iff.2 onPath),
      Draft.along_at_cycle covers.path covers.here.1 via]
  | case4 d graph visited path via b rest covers offPath seen _ ih =>
    rw [ih, List.map_cons, Walk.Errand.map, Walk.run, if_neg (mt covers.mem_path_iff.1 offPath),
      if_pos (covers.mem_visited_iff.2 seen), Draft.along_after_edge covers.isAt covers.here]
  | case5 d graph visited path via b rest covers offPath unseen d' e supplied =>
    rw [List.map_cons, Walk.Errand.map, Walk.run, if_neg (mt covers.mem_path_iff.1 offPath),
      if_neg (mt covers.mem_visited_iff.1 unseen), Trail.after_append,
      Draft.along_after_edge covers.isAt covers.here,
      Draft.along_after_refused covers.here.1 (Draft.mint_of_supply_error supplied)]
  | case6 d graph visited path via b rest covers offPath unseen d' bears supplied _ ih =>
    obtain ⟨minted, -, -⟩ := Draft.mint_of_supply_ok supplied covers.isAt_site
    rw [List.map_cons, Walk.Errand.map, Walk.run, if_neg (mt covers.mem_path_iff.1 offPath),
      if_neg (mt covers.mem_visited_iff.1 unseen), Trail.after_append,
      Draft.along_after_edge covers.isAt covers.here,
      Draft.along_after_enter covers.here.1 minted, ih, covers.map_errands supplied]
    rfl

/-- Completes one group bear by bear and adds it to the roster. -/
def exploreGroup (r : Roster w) (nextId : Nat) {site : Site w} {group : Group w}
    (isAt : Group.IsAt site group) : Draft w × Except (SetupError (Bear w)) (Roster w) :=
  match explore ⟨group, nextId, []⟩ r.graph [] [] (group.values.map (.visit none))
    (.start isAt) with
  | (d, .error e) => (d, .error e)
  | (d, .ok graph) => (d, .ok ⟨r.bears ++ d.group.values, graph⟩)

/-- A group comes out the same whichever way it is completed: with the same bears, numbers and
notices, and with the same error or the same graph. -/
theorem exploreGroup_eq (r : Roster w) (nextId : Nat) {site : Site w} {group : Group w}
    (isAt : Group.IsAt site group) : r.exploreGroup nextId isAt = r.addGroup nextId group := by
  have starts : (group.values.map (.visit none)).map (Walk.Errand.map Bear.kindId) =
      group.keys.map (.visit none) := by
    rw [← OrderedMap.map_values fun k b found => (isAt k b found).1, List.map_map, List.map_map]
    rfl
  have inStep : explore ⟨group, nextId, []⟩ r.graph [] [] _ (.start isAt) =
      Draft.along ⟨group, nextId, []⟩ r.graph (walk (kindGraph w) group.keys) := by
    rw [explore_eq, starts]
    rfl
  unfold exploreGroup addGroup
  rw [inStep]
  unfold Draft.along
  dsimp only
  cases Draft.mintAll ⟨group, nextId, []⟩ (walk (kindGraph w) group.keys).entered with
  | mk d failure =>
    cases failure with
    | some e => rfl
    | none => cases (walk (kindGraph w) group.keys).cycle <;> rfl

/-- Completes the groups of all sites bear by bear, up to the first that fails. -/
def exploreGroups (r : Roster w) (nextId : Nat) : (groups : List (Site w × Group w)) →
    (∀ e ∈ groups, Group.IsAt e.1 e.2) →
      List (Notice w) × Except (SetupError (Bear w)) (Roster w)
  | [], _ => ([], .ok r)
  | e :: rest, isAt =>
    match r.exploreGroup nextId (isAt e List.mem_cons_self) with
    | (d, .error e) => (d.notices, .error e)
    | (d, .ok r) =>
      let (notices, result) :=
        r.exploreGroups d.nextId rest fun e mem => isAt e (List.mem_cons_of_mem _ mem)
      (d.notices ++ notices, result)

theorem exploreGroups_eq (r : Roster w) (nextId : Nat) {groups : List (Site w × Group w)}
    (isAt : ∀ e ∈ groups, Group.IsAt e.1 e.2) :
    r.exploreGroups nextId groups isAt = r.addGroups nextId (groups.map Prod.snd) := by
  induction groups generalizing r nextId with
  | nil => rfl
  | cons e rest ih =>
    rw [exploreGroups, exploreGroup_eq, List.map_cons, addGroups]
    cases r.addGroup nextId e.2 with
    | mk d completed =>
      cases completed with
      | error e => rfl
      | ok r' =>
        dsimp only
        rw [ih]

/-- The roster of the supplied bears, with the walks going through the bears themselves. -/
def exploreAll (nextId : Nat) (supplied : List (Bear w)) :
    List (Notice w) × Except (SetupError (Bear w)) (Roster w) :=
  let (more, result) := exploreGroups .empty nextId (enlistAll .empty supplied).1.entries
    fun _ => isAt_of_mem_enlistAll
  ((enlistAll .empty supplied).2 ++ more, result)

theorem exploreAll_eq (nextId : Nat) (supplied : List (Bear w)) :
    exploreAll nextId supplied = assemble nextId supplied := by
  rw [exploreAll, exploreGroups_eq]
  rfl

end Roster

end AnalysisScheduler
