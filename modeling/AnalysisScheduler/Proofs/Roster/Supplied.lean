import AnalysisScheduler.Proofs.Run.Roster
import Mathlib.Order.Fin.Basic

/-!
# Supplied bears

What is kept of the bears that a caller supplies: at each site the first bear of each kind
(`Roster.kept`), site by site in the order in which the sites are first met (`Roster.sites`). The
groups that the bears are put into hold exactly these (`keys_enlistAll`, `entries_of_enlistAll`).
What a site needs are the kinds of its bears and all that these declare, directly or through others
(`Roster.Needs`).
-/

namespace AnalysisScheduler

variable {w : Workspace}

/-- Kind `k` declares that it depends on kind `k'`. -/
def Workspace.Declares (w : Workspace) (k k' : KindId w) : Prop := k' ∈ (w.kind k).dependencies

theorem Workspace.mem_dependenciesOf {k k' : KindId w} :
    k' ∈ w.dependenciesOf k ↔ w.Declares k k' := List.mem_eraseDups

namespace Roster

/-- The sites of the supplied bears, in the order in which they first occur. -/
def sites (supplied : List (Bear w)) : List (Site w) := (supplied.map Bear.site).eraseDups

/-- The first of the supplied bears of each kind at a site. -/
def kept (supplied : List (Bear w)) (site : Site w) : List (Bear w) :=
  (supplied.filter (·.site = site)).eraseDupsBy (·.kindId == ·.kindId)

/-- A kind that can be reached from the kinds of `starts` along declared dependencies. -/
def Reached (starts : List (KindId w)) (k : KindId w) : Prop :=
  ∃ s ∈ starts, Relation.ReflTransGen w.Declares s k

/-- A site needs the kinds of the bears that it keeps, and what these depend on. -/
def Needs (supplied : List (Bear w)) (site : Site w) (k : KindId w) : Prop :=
  Reached ((kept supplied site).map Bear.kindId) k

theorem mem_sites {supplied : List (Bear w)} {site : Site w} :
    site ∈ sites supplied ↔ ∃ b ∈ supplied, b.site = site := by
  unfold sites
  rw [List.mem_eraseDups, List.mem_map]

/-! ## First bears of their kinds -/

theorem mem_eraseDupsBy_kindId {b : Bear w} : ∀ {bears : List (Bear w)},
    b ∈ bears.eraseDupsBy (·.kindId == ·.kindId) → b ∈ bears
  | [], mem => by simp at mem
  | a :: rest, mem => by
    rw [List.eraseDupsBy_cons, List.mem_cons] at mem
    rcases mem with rfl | mem
    · exact List.mem_cons_self
    · exact List.mem_cons_of_mem _ (List.mem_filter.1 (mem_eraseDupsBy_kindId mem)).1
termination_by bears => bears.length
decreasing_by
  exact Nat.lt_succ_of_le (List.length_filter_le _ _)

/-- Every kind that occurs has a first bear. -/
theorem mem_map_kindId_eraseDupsBy {b : Bear w} : ∀ {bears : List (Bear w)},
    b ∈ bears → b.kindId ∈ (bears.eraseDupsBy (·.kindId == ·.kindId)).map Bear.kindId
  | [], mem => absurd mem List.not_mem_nil
  | a :: rest, mem => by
    rw [List.eraseDupsBy_cons, List.map_cons, List.mem_cons]
    by_cases same : b.kindId = a.kindId
    · exact .inl same
    · have other : b ∈ rest.filter fun b => (b.kindId == a.kindId) = false := by
        rcases List.mem_cons.1 mem with rfl | mem
        · exact absurd rfl same
        · exact List.mem_filter.2 ⟨mem, by simpa using same⟩
      exact .inr (mem_map_kindId_eraseDupsBy other)
termination_by bears => bears.length
decreasing_by
  exact Nat.lt_succ_of_le (List.length_filter_le _ _)

theorem mem_kept {supplied : List (Bear w)} {site : Site w} {b : Bear w}
    (mem : b ∈ kept supplied site) : b ∈ supplied ∧ b.site = site := by
  obtain ⟨mem, here⟩ := List.mem_filter.1 (mem_eraseDupsBy_kindId mem)
  exact ⟨mem, of_decide_eq_true here⟩

/-- The kinds that are kept at a site are those that are supplied there. -/
theorem mem_map_kindId_kept {supplied : List (Bear w)} {site : Site w} {k : KindId w} :
    k ∈ (kept supplied site).map Bear.kindId ↔ ∃ b ∈ supplied, b.site = site ∧ b.kindId = k := by
  constructor
  · intro mem
    obtain ⟨b, found, rfl⟩ := List.mem_map.1 mem
    obtain ⟨supplied, here⟩ := mem_kept found
    exact ⟨b, supplied, here, rfl⟩
  · rintro ⟨b, mem, here, rfl⟩
    exact mem_map_kindId_eraseDupsBy (List.mem_filter.2 ⟨mem, decide_eq_true here⟩)

/-! ## Groups of supplied bears -/

/-- The group of a site, which is empty before its first bear. -/
def groupAt (groups : OrderedMap (Site w) (Group w)) (site : Site w) : Group w :=
  (groups.get? site).getD .empty

/-- A bear joins the group of its site, unless the group has a bear of its kind. -/
theorem groupAt_enlist (groups : OrderedMap (Site w) (Group w)) (b : Bear w) (site : Site w) :
    groupAt (enlist groups b).1 site =
      if b.site = site ∧ b.kindId ∉ (groupAt groups site).keys then
        (groupAt groups site).insert b.kindId b
      else groupAt groups site := by
  unfold enlist groupAt
  dsimp only
  split
  · rename_i kept found
    show (groups.get? site).getD .empty = _
    rw [if_neg]
    rintro ⟨rfl, new⟩
    exact new (OrderedMap.mem_keys_iff.2 ⟨kept, found⟩)
  · rename_i missing
    rw [OrderedMap.get?_insert]
    by_cases here : b.site = site
    · subst here
      rw [if_pos rfl, if_pos ⟨rfl, OrderedMap.get?_eq_none_iff.1 missing⟩]
      rfl
    · rw [if_neg fun same => here same.symm, if_neg fun h => here h.1]

theorem keys_enlist (groups : OrderedMap (Site w) (Group w)) (b : Bear w)
    (old : b.site ∈ groups.keys ∨ groupAt groups b.site = .empty) :
    (enlist groups b).1.keys = appendNew groups.keys b.site := by
  unfold enlist
  dsimp only
  split
  · rename_i kept found
    refine (appendNew_of_mem (old.resolve_right fun empty => ?_)).symm
    change (groupAt groups b.site).get? b.kindId = some kept at found
    rw [empty] at found
    cases found
  · exact OrderedMap.keys_insert ..

/-- A group that does not exist has no bears yet. -/
theorem mem_keys_or_groupAt_eq (groups : OrderedMap (Site w) (Group w)) (site : Site w) :
    site ∈ groups.keys ∨ groupAt groups site = .empty := by
  by_cases mem : site ∈ groups.keys
  · exact .inl mem
  · refine .inr ?_
    rw [groupAt, OrderedMap.get?_eq_none_iff.2 mem]
    rfl

/-- The groups stand in the order in which their sites first occur. -/
theorem keys_enlistAll (supplied : List (Bear w)) :
    (enlistAll .empty supplied).1.keys = sites supplied := by
  have grown (groups : OrderedMap (Site w) (Group w)) (bears : List (Bear w)) :
      (enlistAll groups bears).1.keys = (bears.map Bear.site).foldl appendNew groups.keys := by
    induction bears generalizing groups with
    | nil => rfl
    | cons b rest ih =>
      show (enlistAll (enlist groups b).1 rest).1.keys = _
      rw [ih, keys_enlist _ _ (mem_keys_or_groupAt_eq groups b.site)]
      rfl
  rw [grown]
  exact foldl_appendNew_nil _

theorem entries_groupAt_enlistAll (groups : OrderedMap (Site w) (Group w)) (bears : List (Bear w))
    (site : Site w) :
    (groupAt (enlistAll groups bears).1 site).entries = (groupAt groups site).entries ++
      (((bears.filter (·.site = site)).filter (·.kindId ∉ (groupAt groups site).keys)).eraseDupsBy
        (·.kindId == ·.kindId)).map fun b => (b.kindId, b) := by
  induction bears generalizing groups with
  | nil => simp [enlistAll]
  | cons b rest ih =>
    show (groupAt (enlistAll (enlist groups b).1 rest).1 site).entries = _
    rw [ih, groupAt_enlist]
    by_cases here : b.site = site
    · rw [List.filter_cons_of_pos (by simpa using here)]
      by_cases new : b.kindId ∉ (groupAt groups site).keys
      · rw [if_pos ⟨here, new⟩, List.filter_cons_of_pos (by simpa using new),
          List.eraseDupsBy_cons, List.map_cons, OrderedMap.entries_insert_of_not_mem _ _ new,
          OrderedMap.keys_insert_of_not_mem _ new, List.append_assoc, List.singleton_append,
          List.filter_filter (p := fun b' : Bear w => (b'.kindId == b.kindId) = false)]
        -- Later bears of this kind are passed over, since the group has one now.
        congr 4
        refine List.filter_congr fun b' _ => ?_
        rw [Bool.eq_iff_iff]
        simp [and_comm]
      · rw [if_neg fun h => new h.2, List.filter_cons_of_neg (by simpa using new)]
    · rw [if_neg fun h => here h.1, List.filter_cons_of_neg (by simpa using here)]

/-- The group of a site holds what is kept of its bears. -/
theorem entries_of_enlistAll {supplied : List (Bear w)} {site : Site w} {g : Group w}
    (found : (enlistAll .empty supplied).1.get? site = some g) :
    g.entries = (kept supplied site).map fun b => (b.kindId, b) := by
  have entries := entries_groupAt_enlistAll .empty supplied site
  rw [groupAt, found] at entries
  refine entries.trans ?_
  have all : (supplied.filter (·.site = site)).filter
      (·.kindId ∉ (OrderedMap.empty : Group w).keys) = supplied.filter (·.site = site) :=
    List.filter_eq_self.2 fun _ _ => decide_eq_true List.not_mem_nil
  show [] ++ _ = _
  rw [List.nil_append, groupAt, OrderedMap.get?_empty]
  exact congrArg (fun bears => (List.eraseDupsBy _ bears).map _) all

theorem keys_of_enlistAll {supplied : List (Bear w)} {site : Site w} {g : Group w}
    (found : (enlistAll .empty supplied).1.get? site = some g) :
    g.keys = (kept supplied site).map Bear.kindId := by
  unfold OrderedMap.keys
  rw [entries_of_enlistAll found, List.map_map]
  rfl

theorem values_of_enlistAll {supplied : List (Bear w)} {site : Site w} {g : Group w}
    (found : (enlistAll .empty supplied).1.get? site = some g) : g.values = kept supplied site := by
  unfold OrderedMap.values
  rw [entries_of_enlistAll found, List.map_map]
  exact List.map_id' _

end Roster

end AnalysisScheduler
