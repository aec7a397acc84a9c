import AnalysisScheduler.Proofs.Roster.Supplied

/-!
# Completing a group

What completing a group makes: the bears that are made are told one by one, they are numbered in
that order, and the group lists them after the bears that were supplied (`Draft.Grows`,
`grows_mintAll`). When a bear cannot be made, the failure is that of a kind that the group lacks
(`mintAll_eq_error`), and a walk that meets a cycle has already made all the bears on it
(`addGroup_eq_error`). Whether a group can be completed depends on the kinds only
(`addGroup_eq_ok_iff`).
-/

namespace AnalysisScheduler

variable {w : Workspace}

/-- The bear that a notice says was made. -/
def Notice.made? : Notice w → Option (Bear w)
  | .minted dependency _ => some dependency
  | _ => none

/-- The bears that were made, in the order in which the notices tell it. -/
def madeIn (said : List (Notice w)) : List (Bear w) := said.filterMap Notice.made?

theorem madeIn_append (said more : List (Notice w)) :
    madeIn (said ++ more) = madeIn said ++ madeIn more := List.filterMap_append

namespace Roster

/-! ## Making bears -/

/-- A draft has grown by the bears of `made`, which all belong to `site`. -/
structure Draft.Grows (site : Site w) (d d' : Draft w) (made : List (Bear w)) : Prop where
  entries : d'.group.entries = d.group.entries ++ made.map fun b => (b.kindId, b)
  told : madeIn d'.notices = madeIn d.notices ++ made
  numbered : made.map Bear.id = List.range' d.nextId made.length
  nextId : d'.nextId = d.nextId + made.length
  here : ∀ b ∈ made, b.site = site

namespace Draft.Grows

theorem refl (site : Site w) (d : Draft w) : Grows site d d [] where
  entries := (List.append_nil _).symm
  told := (List.append_nil _).symm
  numbered := rfl
  nextId := rfl
  here _ mem := absurd mem List.not_mem_nil

theorem trans {site : Site w} {d₁ d₂ d₃ : Draft w} {made more : List (Bear w)}
    (first : Grows site d₁ d₂ made) (second : Grows site d₂ d₃ more) :
    Grows site d₁ d₃ (made ++ more) where
  entries := by
    rw [second.entries, first.entries, List.append_assoc, List.map_append]
  told := by
    rw [second.told, first.told, List.append_assoc]
  numbered := by
    rw [List.map_append, first.numbered, second.numbered, first.nextId, List.length_append,
      List.range'_append_1]
  nextId := by
    rw [second.nextId, first.nextId, List.length_append, Nat.add_assoc]
  here b mem := (List.mem_append.1 mem).elim (first.here b) (second.here b)

theorem isAt {site : Site w} {d d' : Draft w} {made : List (Bear w)} (grows : Grows site d d' made)
    (isAt : Group.IsAt site d.group) : Group.IsAt site d'.group := by
  intro k b found
  have mem := OrderedMap.mem_entries_of_get? found
  rw [grows.entries, List.mem_append, List.mem_map] at mem
  rcases mem with old | ⟨b', mem, same⟩
  · exact isAt k b (OrderedMap.get?_eq_some_iff.2 old)
  · cases same
    exact ⟨rfl, grows.here b mem⟩

theorem values {site : Site w} {d d' : Draft w} {made : List (Bear w)}
    (grows : Grows site d d' made) : d'.group.values = d.group.values ++ made := by
  unfold OrderedMap.values
  rw [grows.entries, List.map_append, List.map_map]
  exact congrArg _ (List.map_id' made)

theorem mem_keys {site : Site w} {d d' : Draft w} {made : List (Bear w)}
    (grows : Grows site d d' made) {k : KindId w} (mem : k ∈ d.group.keys) : k ∈ d'.group.keys := by
  unfold OrderedMap.keys at mem ⊢
  rw [grows.entries, List.map_append]
  exact List.mem_append_left _ mem

end Draft.Grows

theorem grows_mint (d : Draft w) (dependant : Bear w) (ks : List (KindId w)) :
    ∃ made, Draft.Grows dependant.site d (d.mint dependant ks).1 made := by
  fun_induction Draft.mint d dependant ks with
  | case1 d => exact ⟨[], .refl _ d⟩
  | case2 d k rest has ih => exact ih
  | case3 d k rest lacks e failed => exact ⟨[], .refl _ d⟩
  | case4 d k rest lacks b created d₁ ih =>
    obtain ⟨made, grows⟩ := ih
    obtain ⟨rfl, here⟩ := Bear.make_eq_ok created
    have new : b.kindId ∉ d.group.keys := mt OrderedMap.contains_iff.2 lacks
    have one : Draft.Grows dependant.site d d₁ [b] := {
      entries := OrderedMap.entries_insert_of_not_mem _ _ new
      told := madeIn_append ..
      numbered := by rw [List.map_singleton, Bear.id_of_make created]; rfl
      nextId := rfl
      here := fun _ mem => List.mem_singleton.1 mem ▸ here }
    exact ⟨b :: made, one.trans grows⟩

theorem grows_mintAll {site : Site w} (d : Draft w) (ks : List (KindId w))
    (isAt : Group.IsAt site d.group) : ∃ made, Draft.Grows site d (d.mintAll ks).1 made := by
  fun_induction Draft.mintAll d ks with
  | case1 d => exact ⟨[], .refl _ d⟩
  | case2 d k rest missing ih => exact ih isAt
  | case3 d k rest dependant found d₁ e failed =>
    have grows := grows_mint d dependant (w.dependenciesOf k)
    rwa [failed, (isAt k dependant found).2] at grows
  | case4 d k rest dependant found d₁ minted ih =>
    have grows := grows_mint d dependant (w.dependenciesOf k)
    rw [minted, (isAt k dependant found).2] at grows
    obtain ⟨made, first⟩ := grows
    obtain ⟨more, second⟩ := ih (first.isAt isAt)
    exact ⟨made ++ more, first.trans second⟩

/-! ## Failures -/

/-- Making bears fails with the error of a kind that is lacking. -/
theorem mint_eq_error {d d' : Draft w} {dependant : Bear w} {ks : List (KindId w)}
    {e : SettingError} (failed : d.mint dependant ks = (d', some e)) :
    ∃ k ∈ ks, k ∉ d.group.keys ∧ w.optionsOf k dependant.site = .error e := by
  fun_induction Draft.mint d dependant ks with
  | case1 => cases failed
  | case2 d k rest has ih =>
    obtain ⟨k', mem, lacks, error⟩ := ih failed
    exact ⟨k', List.mem_cons_of_mem _ mem, lacks, error⟩
  | case3 d k rest lacks e' unmade =>
    cases failed
    exact ⟨k, List.mem_cons_self, mt OrderedMap.contains_iff.2 lacks, Bear.make_eq_error unmade⟩
  | case4 d k rest lacks b created d₁ ih =>
    obtain ⟨k', mem, lacks', error⟩ := ih failed
    refine ⟨k', List.mem_cons_of_mem _ mem, fun old => lacks' ?_, error⟩
    exact OrderedMap.mem_keys_insert.2 (.inr old)

/-- Completing a group fails with the error of a kind that it lacks and that some kind of the walk
depends on. -/
theorem mintAll_eq_error {site : Site w} {d d' : Draft w} {ks : List (KindId w)} {e : SettingError}
    (failed : d.mintAll ks = (d', some e)) (isAt : Group.IsAt site d.group) :
    ∃ k ∈ ks, ∃ k' ∈ w.dependenciesOf k, k' ∉ d.group.keys ∧ w.optionsOf k' site = .error e := by
  fun_induction Draft.mintAll d ks with
  | case1 => cases failed
  | case2 d k rest missing ih =>
    obtain ⟨k', mem, lacking⟩ := ih failed isAt
    exact ⟨k', List.mem_cons_of_mem _ mem, lacking⟩
  | case3 d k rest dependant found d₁ e' unmade =>
    cases failed
    obtain ⟨k', mem, lacks, error⟩ := mint_eq_error unmade
    rw [(isAt k dependant found).2] at error
    exact ⟨k, List.mem_cons_self, k', mem, lacks, error⟩
  | case4 d k rest dependant found d₁ minted ih =>
    obtain ⟨made, grows⟩ := grows_mint d dependant (w.dependenciesOf k)
    rw [minted, (isAt k dependant found).2] at grows
    obtain ⟨k', mem, k'', needed, lacks, error⟩ := ih failed (grows.isAt isAt)
    exact ⟨k', List.mem_cons_of_mem _ mem, k'', needed, mt grows.mem_keys lacks, error⟩

/-! ## Completed groups -/

theorem leads_kindGraph_eq : Walk.Leads (kindGraph w) = w.Declares := by
  funext k k'
  exact propext (leads_kindGraph.trans Workspace.mem_dependenciesOf)

theorem reached_of_mem_entered {starts : List (KindId w)} {k : KindId w}
    (entered : k ∈ (walk (kindGraph w) starts).entered) : Reached starts k := by
  obtain ⟨s, bound, reach⟩ := Walk.reachable_of_mem_entered entered
  rw [leads_kindGraph_eq] at reach
  exact ⟨s, Walk.bound_starts.1 bound, reach⟩

theorem mem_entered_iff_reached {starts : List (KindId w)}
    (clear : (walk (kindGraph w) starts).cycle = none) {k : KindId w} :
    k ∈ (walk (kindGraph w) starts).entered ↔ Reached starts k := by
  rw [Walk.mem_entered_walk clear, leads_kindGraph_eq]
  exact Iff.rfl

/-- What a walk enters is there when the group is completed along it, whether or not the walk meets
a cycle. -/
theorem mem_keys_of_entered {site : Site w} {group : Group w} {nextId : Nat} {d : Draft w}
    (isAt : Group.IsAt site group)
    (made : Draft.mintAll ⟨group, nextId, []⟩ (walk (kindGraph w) group.keys).entered = (d, none))
    {k : KindId w} (entered : k ∈ (walk (kindGraph w) group.keys).entered) : k ∈ d.group.keys := by
  rw [(keys_mintAll made isAt Walk.grounded_walk).2, mem_foldl_appendNew, List.mem_flatMap]
  exact (Walk.grounded_walk.mem_or_leads entered).imp_right fun ⟨k', mem, leads⟩ =>
    ⟨k', mem, leads_kindGraph.1 leads⟩

/-- The bears of a list of kinds of a group. -/
theorem map_kindId_filterMap_get? {site : Site w} {group : Group w} (isAt : Group.IsAt site group)
    {ks : List (KindId w)} (all : ∀ k ∈ ks, k ∈ group.keys) :
    (ks.filterMap group.get?).map Bear.kindId = ks := by
  induction ks with
  | nil => rfl
  | cons k rest ih =>
    obtain ⟨b, found⟩ := OrderedMap.mem_keys_iff.1 (all k List.mem_cons_self)
    rw [List.filterMap_cons, found, List.map_cons, (isAt k b found).1,
      ih fun k mem => all k (List.mem_cons_of_mem _ mem)]

/-- A cycle of kinds is one of the bears of these kinds. -/
theorem isSimpleCycle_filterMap_get? {site : Site w} {group : Group w}
    (isAt : Group.IsAt site group) {kinds : List (KindId w)}
    (simple : IsSimpleCycle w.Declares kinds) (all : ∀ k ∈ kinds, k ∈ group.keys) :
    IsSimpleCycle (fun a b : Bear w => w.Declares a.kindId b.kindId)
      (kinds.filterMap group.get?) := by
  have named := map_kindId_filterMap_get? isAt all
  obtain ⟨k, rest, rfl, nodup, chain⟩ := simple
  obtain ⟨b, found⟩ := OrderedMap.mem_keys_iff.1 (all k List.mem_cons_self)
  have once : ((k :: rest).filterMap group.get?).map Bear.kindId = k :: rest :=
    map_kindId_filterMap_get? isAt fun k' mem => all k' (by
      rw [← List.cons_append]
      exact List.mem_append_left _ mem)
  refine ⟨b, rest.filterMap group.get?, by simp [found], ?_, ?_⟩
  · rw [← once, List.filterMap_cons, found] at nodup
    exact List.Nodup.of_map _ nodup
  · rw [← named, List.isChain_map] at chain
    exact chain

theorem grows_addGroup {site : Site w} (r : Roster w) (nextId : Nat) {group : Group w}
    (isAt : Group.IsAt site group) :
    ∃ made, Draft.Grows site ⟨group, nextId, []⟩ (r.addGroup nextId group).1 made := by
  obtain ⟨made, grows⟩ := grows_mintAll ⟨group, nextId, []⟩ (walk (kindGraph w) group.keys).entered
    isAt
  refine ⟨made, ?_⟩
  unfold addGroup
  dsimp only
  split
  · rename_i failed
    rwa [failed] at grows
  · rename_i minted _
    rwa [minted] at grows
  · rename_i minted _
    rwa [minted] at grows

/-- Why a group could not be completed: a kind that it lacks cannot be made, or the bears of some of
its kinds depend on each other in a cycle. -/
theorem addGroup_eq_error {r : Roster w} {nextId : Nat} {group : Group w} {d : Draft w}
    {site : Site w} {e : SetupError (Bear w)} (isAt : Group.IsAt site group)
    (failed : r.addGroup nextId group = (d, .error e)) :
    (∃ k error, e = .setting error ∧ Reached group.keys k ∧ k ∉ group.keys ∧
        w.optionsOf k site = .error error) ∨
      ∃ bears, e = .circular ⟨bears⟩ ∧
        IsSimpleCycle (fun a b : Bear w => w.Declares a.kindId b.kindId) bears ∧
        ∀ b ∈ bears, b ∈ d.group.values ∧ Reached group.keys b.kindId := by
  unfold addGroup at failed
  dsimp only at failed
  split at failed
  · rename_i d' error unmade
    cases failed
    obtain ⟨k, entered, k', needed, lacks, same⟩ := mintAll_eq_error unmade isAt
    obtain ⟨s, start, reach⟩ := reached_of_mem_entered entered
    exact .inl ⟨k', error, rfl, ⟨s, start, reach.tail (Workspace.mem_dependenciesOf.1 needed)⟩,
      lacks, same⟩
  · rename_i d' kinds made found
    cases failed
    obtain ⟨simple, met⟩ := Walk.isSimpleCycle_walk found
    rw [leads_kindGraph_eq] at simple
    have isAt' := (keys_mintAll made isAt Walk.grounded_walk).1
    have all : ∀ k ∈ kinds, k ∈ d.group.keys := fun k mem =>
      mem_keys_of_entered isAt made (met k mem)
    refine .inr ⟨_, rfl, isSimpleCycle_filterMap_get? isAt' simple all, fun b mem => ?_⟩
    obtain ⟨k, cyclic, found⟩ := List.mem_filterMap.1 mem
    refine ⟨OrderedMap.mem_values_iff.2 ⟨k, found⟩, ?_⟩
    rw [(isAt' k b found).1]
    exact reached_of_mem_entered (met k cyclic)
  · cases failed

/-- What a site must offer so that the kinds of `starts` get all that they depend on: no kind on the
way depends on itself, and each that is lacking finds its options. -/
def Completable (site : Site w) (starts : List (KindId w)) : Prop :=
  (∀ k, Reached starts k → ¬ Relation.TransGen w.Declares k k) ∧
    ∀ k, Reached starts k → k ∉ starts → ∃ options, w.optionsOf k site = .ok options

theorem addGroup_eq_ok_iff (r : Roster w) (nextId : Nat) {group : Group w} {site : Site w}
    (isAt : Group.IsAt site group) :
    (∃ d r', r.addGroup nextId group = (d, .ok r')) ↔ Completable site group.keys := by
  constructor
  · rintro ⟨d, r', ok⟩
    obtain ⟨isAt', keys⟩ := keys_of_addGroup isAt ok
    have clear := (addGroup_eq_ok ok).1
    refine ⟨fun k reached loop => ?_, fun k reached _ => ?_⟩
    · have acc := Walk.acc_walk clear ((mem_entered_iff_reached clear).2 reached)
      rw [leads_kindGraph_eq] at acc
      exact not_transGen_of_acc acc loop
    · -- The group has a bear of this kind, and a bear has options.
      obtain ⟨b, found⟩ :=
        OrderedMap.mem_keys_iff.1 ((keys k).2 ((mem_entered_iff_reached clear).2 reached))
      obtain ⟨rfl, rfl⟩ := isAt' k b found
      exact ⟨b.options, b.optionsOf_eq⟩
  · rintro ⟨free, offered⟩
    cases result : r.addGroup nextId group with
    | mk d outcome =>
      cases outcome with
      | ok r' => exact ⟨d, r', rfl⟩
      | error e =>
        rcases addGroup_eq_error isAt result with
          ⟨k, error, _, reached, lacks, same⟩ | ⟨bears, _, simple, met⟩
        · obtain ⟨options, ok⟩ := offered k reached lacks
          rw [ok] at same
          cases same
        · obtain ⟨b, mem, loop⟩ := simple.exists_mem_transGen
          refine absurd ?_ (free b.kindId (met b mem).2)
          exact Relation.TransGen.lift Bear.kindId (fun _ _ declares => declares) _ _ loop

end Roster

end AnalysisScheduler
