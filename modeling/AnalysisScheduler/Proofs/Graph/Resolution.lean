import AnalysisScheduler.Proofs.Graph.Order
import Mathlib.Data.List.Perm.Basic

/-!
# Resolving nodes

A node can be resolved by removing its edges one after another from the two sides of a graph, first
those that lead to it and then those that leave it (`WaitGraph.dismantle`). A bucket goes when its
last edge is removed, and a dependant is free when its bucket goes. In between the two sides do not
hold the same edges, but in the end both are what `resolve` says, and the dependants that were found
to be free are those of `freedBy` (`WaitGraph.dismantle_eq`).

When several nodes are resolved, one after another in whatever order, exactly those edges are left
that touch none of them (`edges_foldl_resolve`), and a node outside is set free by one of the calls
if it waited on nobody else, and by none otherwise (`countP_freedAlong`). The order decides which
call frees a node, but neither what is left of the graph nor who is free (`resolved_in_any_order`).
Cycles and repeated nodes make no difference.
-/

namespace AnalysisScheduler

namespace Adjacency

variable {α : Type u} [DecidableEq α]

omit [DecidableEq α] in
theorem eq_of_buckets {g h : Adjacency α} (same : g.buckets = h.buckets) : g = h := by
  cases g
  cases h
  cases same
  rfl

/-! ## Buckets that lose a target -/

/-- A bucket without one of its targets, unless nothing is left. -/
def prune (b : α) (bs : List α) : Option (List α) :=
  if bs.filter (· ≠ b) = [] then none else some (bs.filter (· ≠ b))

theorem restOfBucket_eq (d a : α) (bs : List α) :
    restOfBucket d a bs = if a = d then none else prune d bs := by
  unfold restOfBucket prune
  split
  · rfl
  · split
    · rename_i none
      rw [if_pos none]
    · rename_i some
      rw [if_neg some]

theorem prune_eq_some {b : α} {bs rest : List α} (left : prune b bs = some rest) :
    rest = bs.filter (· ≠ b) ∧ rest ≠ [] := by
  unfold prune at left
  split_ifs at left with none
  obtain rfl := Option.some.inj left
  exact ⟨rfl, none⟩

theorem getD_prune (b : α) (bs : List α) : (prune b bs).getD [] = bs.filter (· ≠ b) := by
  unfold prune
  split
  · rename_i none
    rw [none]
    rfl
  · rfl

theorem bind_prune (d e : α) (bs : List α) :
    (prune d bs).bind (prune e) =
      if (bs.filter fun b => b ≠ d ∧ b ≠ e) = [] then none
      else some (bs.filter fun b => b ≠ d ∧ b ≠ e) := by
  have twice : (bs.filter (· ≠ d)).filter (· ≠ e) = bs.filter fun b => b ≠ d ∧ b ≠ e := by
    rw [List.filter_filter]
    exact List.filter_congr fun b _ => by rw [← Bool.decide_and, decide_eq_decide, and_comm]
  by_cases none : bs.filter (· ≠ d) = []
  · rw [prune, if_pos none, Option.bind_none, ← twice, none]
    rfl
  · rw [prune, if_neg none, Option.bind_some, prune, twice]

theorem bind_prune_self (b : α) (bs : List α) : (prune b bs).bind (prune b) = prune b bs := by
  rw [bind_prune, prune]
  simp only [and_self]

theorem bind_prune_comm (d e : α) (bs : List α) :
    (prune d bs).bind (prune e) = (prune e bs).bind (prune d) := by
  rw [bind_prune, bind_prune]
  simp only [and_comm]

/-- What is left of a bucket after two nodes does not depend on which of them went first. -/
theorem bind_restOfBucket_comm (d e a : α) (bs : List α) :
    (restOfBucket d a bs).bind (restOfBucket e a) =
      (restOfBucket e a bs).bind (restOfBucket d a) := by
  simp only [funext (restOfBucket_eq d a), funext (restOfBucket_eq e a)]
  by_cases first : a = d
  · simp [first]
  · by_cases second : a = e
    · simp [second]
    · simp only [first, second, if_false, bind_prune_comm]

theorem isolate_comm (g : Adjacency α) (d e : α) :
    (g.isolate d).isolate e = (g.isolate e).isolate d := by
  refine eq_of_buckets ?_
  show (g.buckets.filterMap (restOfBucket d)).filterMap (restOfBucket e) =
    (g.buckets.filterMap (restOfBucket e)).filterMap (restOfBucket d)
  simp only [OrderedMap.filterMap_filterMap, bind_restOfBucket_comm]

theorem map_getD_restOfBucket (d a : α) (bs : List α) :
    ((restOfBucket d a bs).getD []).map (a, ·) =
      (bs.map (a, ·)).filter fun e => e.1 ≠ d ∧ e.2 ≠ d := by
  rw [restOfBucket_eq, List.filter_map]
  by_cases same : a = d
  · simp [Function.comp_def, same]
  · have kept : bs.filter ((fun e : α × α => decide (e.1 ≠ d ∧ e.2 ≠ d)) ∘ (a, ·)) =
        bs.filter (· ≠ d) := List.filter_congr fun b _ => by simp [same]
    rw [kept, if_neg same, getD_prune]

theorem edges_isolate (g : Adjacency α) (d : α) :
    (g.isolate d).edges = g.edges.filter fun e => e.1 ≠ d ∧ e.2 ≠ d := by
  have buckets (es : List (α × List α)) :
      (es.filterMap fun e => (restOfBucket d e.1 e.2).map (e.1, ·)).flatMap
          (fun e => e.2.map (e.1, ·)) =
        (es.flatMap fun e => e.2.map (e.1, ·)).filter fun e => e.1 ≠ d ∧ e.2 ≠ d := by
    induction es with
    | nil => rfl
    | cons e es ih =>
      rw [List.flatMap_cons, List.filter_append, ← ih, ← map_getD_restOfBucket,
        List.filterMap_cons]
      cases restOfBucket d e.1 e.2 <;> rfl
  exact buckets g.buckets.entries

/-! ## Edge by edge -/

/-- Removes the edge from `a` to `b`, and the bucket of `a` if it was its last edge. -/
def unlink (g : Adjacency α) (a b : α) : Adjacency α where
  buckets := g.buckets.filterMap fun k bs => if k = a then prune b bs else some bs
  nonempty e he := by
    obtain ⟨bs, mem, kept⟩ := OrderedMap.mem_entries_filterMap.1 he
    split_ifs at kept
    · exact (prune_eq_some kept).2
    · exact Option.some.inj kept ▸ g.nonempty _ mem
  nodup e he := by
    obtain ⟨bs, mem, kept⟩ := OrderedMap.mem_entries_filterMap.1 he
    split_ifs at kept
    · exact (prune_eq_some kept).1 ▸ (g.nodup _ mem).filter _
    · exact Option.some.inj kept ▸ g.nodup _ mem

/-- Removes every edge that leaves `a`. -/
def forget (g : Adjacency α) (a : α) : Adjacency α where
  buckets := g.buckets.erase a
  nonempty e he := by
    obtain ⟨bs, mem, kept⟩ := OrderedMap.mem_entries_filterMap.1 he
    split_ifs at kept
    exact Option.some.inj kept ▸ g.nonempty _ mem
  nodup e he := by
    obtain ⟨bs, mem, kept⟩ := OrderedMap.mem_entries_filterMap.1 he
    split_ifs at kept
    exact Option.some.inj kept ▸ g.nodup _ mem

/-- Removes the edges from these nodes to `b` one after another, and lists those nodes that lose
their last edge by it. -/
def unlinkAll (b : α) : List α → Adjacency α → Adjacency α × List α
  | [], g => (g, [])
  | a :: rest, g =>
    let next := g.unlink a b
    let (last, emptied) := unlinkAll b rest next
    (last, if a ∈ g.sources ∧ a ∉ next.sources then a :: emptied else emptied)

theorem targets_of_pruned {g h : Adjacency α} {b : α} {p : α → Prop} [DecidablePred p]
    (pruned : h.buckets = g.buckets.filterMap fun k bs => if p k then prune b bs else some bs)
    (x : α) : h.targets x = if p x then (g.targets x).filter (· ≠ b) else g.targets x := by
  unfold targets
  rw [pruned, OrderedMap.get?_filterMap]
  cases g.buckets.get? x with
  | none => exact (ite_self []).symm
  | some bs =>
    rw [Option.bind_some, apply_ite (Option.getD · []), getD_prune]
    rfl

theorem targets_unlink (g : Adjacency α) (a b x : α) :
    (g.unlink a b).targets x = if x = a then (g.targets x).filter (· ≠ b) else g.targets x :=
  targets_of_pruned (p := (· = a)) rfl x

theorem buckets_forget (g : Adjacency α) (a : α) :
    (g.forget a).buckets = g.buckets.filterMap fun k bs => if k = a then none else some bs := rfl

theorem targets_forget (g : Adjacency α) (a x : α) :
    (g.forget a).targets x = if x = a then [] else g.targets x := by
  unfold targets forget
  rw [OrderedMap.get?_erase, apply_ite (Option.getD · [])]
  rfl

/-- In the end each of the buckets has been pruned once. -/
theorem buckets_unlinkAll (b : α) (as : List α) (g : Adjacency α) :
    (unlinkAll b as g).1.buckets =
      g.buckets.filterMap fun k bs => if k ∈ as then prune b bs else some bs := by
  induction as generalizing g with
  | nil =>
    simp only [List.not_mem_nil, if_false]
    exact g.buckets.filterMap_some.symm
  | cons a rest ih =>
    refine (ih (g.unlink a b)).trans ?_
    unfold unlink
    rw [OrderedMap.filterMap_filterMap]
    refine OrderedMap.filterMap_congr fun k bs _ => ?_
    by_cases here : k = a
    · rw [if_pos here, if_pos (here ▸ List.mem_cons_self)]
      split
      · exact bind_prune_self b bs
      · cases prune b bs <;> rfl
    · rw [if_neg here, Option.bind_some]
      simp only [List.mem_cons, here, false_or]

theorem not_mem_sources_unlink_iff {g : Adjacency α} {a b : α} (linked : b ∈ g.targets a) :
    a ∉ (g.unlink a b).sources ↔ g.targets a = [b] := by
  rw [← targets_ne_nil_iff, not_not, targets_unlink, if_pos rfl, List.filter_eq_nil_iff,
    ← not_iff_not, ← ne_eq (g.targets a), (g.nodup_targets a).ne_singleton_iff]
  simp [List.ne_nil_of_mem linked]

theorem emptied_unlinkAll {b : α} {as : List α} (nodup : as.Nodup) {g : Adjacency α}
    (linked : ∀ a ∈ as, b ∈ g.targets a) :
    (unlinkAll b as g).2 = as.filter fun a => g.targets a = [b] := by
  induction as generalizing g with
  | nil => rfl
  | cons a rest ih =>
    rw [List.nodup_cons] at nodup
    -- The other buckets are still as they were.
    have others : ∀ x ∈ rest, (g.unlink a b).targets x = g.targets x := fun x mem => by
      rw [targets_unlink, if_neg fun same : x = a => nodup.1 (same ▸ mem)]
    have rests : (unlinkAll b rest (g.unlink a b)).2 = rest.filter fun x => g.targets x = [b] := by
      rw [ih nodup.2 fun x mem => others x mem ▸ linked x (List.mem_cons_of_mem a mem)]
      exact List.filter_congr fun x mem => by rw [others x mem]
    have here := linked a List.mem_cons_self
    have source : a ∈ g.sources := targets_ne_nil_iff.1 (List.ne_nil_of_mem here)
    rw [List.filter_cons, unlinkAll]
    simp only [rests, source, true_and, not_mem_sources_unlink_iff here, decide_eq_true_eq]

/-- Pruning the buckets that lead to a node and forgetting its own isolates it. -/
theorem buckets_isolate (g : Adjacency α) (d : α) {as : List α}
    (known : ∀ a, a ≠ d → (a ∈ as ↔ d ∈ g.targets a)) :
    (g.isolate d).buckets = g.buckets.filterMap fun k bs =>
      if k = d then none else if k ∈ as then prune d bs else some bs := by
  refine OrderedMap.filterMap_congr fun k bs mem => ?_
  rw [restOfBucket_eq]
  split_ifs with own leads
  · rfl
  · rfl
  · have targets : g.targets k = bs := by
      rw [Adjacency.targets, OrderedMap.get?_eq_some_iff.2 mem]
      rfl
    have apart : d ∉ bs := targets ▸ mt (known k own).2 leads
    have whole : bs.filter (· ≠ d) = bs :=
      List.filter_eq_self.2 fun x mem => decide_eq_true fun same => apart (same ▸ mem)
    rw [prune, whole, if_neg (g.nonempty _ mem)]

end Adjacency

namespace WaitGraph

variable {α : Type u} [DecidableEq α]

/-- Resolves a node edge by edge: both sides of the graph, and who is free after that. -/
def dismantle (g : WaitGraph α) (node : α) : Adjacency α × Adjacency α × List α :=
  let unlocks := (Adjacency.unlinkAll node (g.awaits.targets node) g.unlocks).1
  let (awaits, freed) :=
    Adjacency.unlinkAll node (unlocks.targets node) (g.awaits.forget node)
  (unlocks.forget node, awaits, freed)

theorem dismantle_eq (g : WaitGraph α) (node : α) :
    g.dismantle node = ((g.resolve node).unlocks, (g.resolve node).awaits, g.freedBy node) := by
  set unlocks := (Adjacency.unlinkAll node (g.awaits.targets node) g.unlocks).1 with first
  have known (a : α) : a ∈ g.awaits.targets node ↔ node ∈ g.unlocks.targets a :=
    (g.agree a node).symm
  have pruned := Adjacency.buckets_unlinkAll node (g.awaits.targets node) g.unlocks
  -- A node that waits on itself has lost that edge before its dependants are looked up.
  have dependants : unlocks.targets node = (g.dependantsOf node).filter (· ≠ node) := by
    rw [Adjacency.targets_of_pruned pruned]
    split
    · rfl
    · rename_i apart
      have whole : (g.dependantsOf node).filter (· ≠ node) = g.dependantsOf node :=
        List.filter_eq_self.2 fun x mem =>
          decide_eq_true fun same => apart ((known node).2 (same ▸ mem))
      exact whole.symm
  have other {x : α} (mem : x ∈ unlocks.targets node) : x ≠ node := by
    rw [dependants] at mem
    exact of_decide_eq_true (List.mem_filter.1 mem).2
  have waits {x : α} (apart : x ≠ node) :
      x ∈ unlocks.targets node ↔ node ∈ g.awaits.targets x := by
    rw [dependants, List.mem_filter, ← g.agree node x]
    exact and_iff_left (decide_eq_true apart)
  have left : unlocks.forget node = (g.resolve node).unlocks := by
    refine Adjacency.eq_of_buckets ?_
    show _ = (g.unlocks.isolate node).buckets
    rw [g.unlocks.buckets_isolate node fun a _ => known a, Adjacency.buckets_forget, pruned,
      OrderedMap.filterMap_filterMap]
    refine OrderedMap.filterMap_congr fun k bs _ => ?_
    by_cases own : k = node
    · simp only [own, if_true, Option.bind_fun_none]
    · simp only [own, if_false, Option.bind_fun_some]
  have right : (Adjacency.unlinkAll node (unlocks.targets node) (g.awaits.forget node)).1 =
      (g.resolve node).awaits := by
    refine Adjacency.eq_of_buckets ?_
    show _ = (g.awaits.isolate node).buckets
    rw [g.awaits.buckets_isolate node fun a => waits, Adjacency.buckets_unlinkAll,
      Adjacency.buckets_forget, OrderedMap.filterMap_filterMap]
    refine OrderedMap.filterMap_congr fun k bs _ => ?_
    split <;> rfl
  have freed : (Adjacency.unlinkAll node (unlocks.targets node) (g.awaits.forget node)).2 =
      g.freedBy node := by
    rw [Adjacency.emptied_unlinkAll (unlocks.nodup_targets node) fun a mem => ?_]
    · rw [dependants, List.filter_filter]
      refine List.filter_congr fun x _ => ?_
      rw [Adjacency.targets_forget, ← Bool.decide_and, decide_eq_decide, and_comm]
      exact and_congr_right fun apart => by rw [if_neg apart]; rfl
    · rw [Adjacency.targets_forget, if_neg (other mem)]
      exact (waits (other mem)).1 mem
  unfold dismantle
  simp only [← first, left, right, freed]

/-! ## Several nodes -/

theorem resolve_comm (g : WaitGraph α) (d e : α) :
    (g.resolve d).resolve e = (g.resolve e).resolve d := by
  unfold resolve
  simp only [Adjacency.isolate_comm _ d e]

theorem edges_foldl_resolve (g : WaitGraph α) (ns : List α) :
    (ns.foldl resolve g).edges = g.edges.filter fun e => e.1 ∉ ns ∧ e.2 ∉ ns := by
  induction ns generalizing g with
  | nil => simp
  | cons n ns ih =>
    have first : (g.resolve n).edges = g.edges.filter fun e => e.1 ≠ n ∧ e.2 ≠ n :=
      g.unlocks.edges_isolate n
    rw [List.foldl_cons, ih, first, List.filter_filter]
    refine List.filter_congr fun e _ => ?_
    rw [Bool.eq_iff_iff]
    simp only [Bool.and_eq_true, decide_eq_true_eq, List.mem_cons, not_or]
    tauto

theorem foldl_resolve_perm (g : WaitGraph α) {ns ms : List α} (same : ns.Perm ms) :
    ns.foldl resolve g = ms.foldl resolve g :=
  same.foldl_eq' (fun d _ e _ g => g.resolve_comm d e) g

/-- The nodes that each call sets free when nodes are resolved one after another. -/
def freedAlong (g : WaitGraph α) : List α → List (List α)
  | [] => []
  | n :: ns => g.freedBy n :: (g.resolve n).freedAlong ns

theorem mem_freedBy_iff_dependenciesOf {g : WaitGraph α} {n x : α} (other : x ≠ n) :
    x ∈ g.freedBy n ↔ g.dependenciesOf x = [n] := by
  unfold freedBy
  rw [List.mem_filter, decide_eq_true_eq]
  refine ⟨fun ⟨_, _, alone⟩ => alone, fun alone => ⟨?_, other, alone⟩⟩
  rw [← mem_dependenciesOf_iff, alone]
  exact List.mem_singleton_self n

theorem dependenciesOf_resolve {g : WaitGraph α} {n x : α} (other : x ≠ n) :
    (g.resolve n).dependenciesOf x = (g.dependenciesOf x).filter (· ≠ n) := by
  refine (g.awaits.targets_isolate n x).trans ?_
  rw [if_neg other]
  rfl

/-- A node that is not resolved itself is set free by one call if it waited on some nodes and all of
them are resolved, and by none otherwise. -/
theorem countP_freedAlong (g : WaitGraph α) {ns : List α} {x : α} (outside : x ∉ ns) :
    (g.freedAlong ns).countP (x ∈ ·) =
      if g.dependenciesOf x ≠ [] ∧ ∀ d ∈ g.dependenciesOf x, d ∈ ns then 1 else 0 := by
  induction ns generalizing g with
  | nil =>
    have none : ¬ (g.dependenciesOf x ≠ [] ∧ ∀ d ∈ g.dependenciesOf x, d ∈ []) :=
      fun ⟨waits, all⟩ => waits (List.eq_nil_iff_forall_not_mem.2 fun d mem => nomatch all d mem)
    rw [if_neg none]
    rfl
  | cons n ns ih =>
    rw [List.mem_cons, not_or] at outside
    obtain ⟨other, outside⟩ := outside
    have left := dependenciesOf_resolve (g := g) other
    rw [freedAlong, List.countP_cons, ih (g.resolve n) outside, left]
    by_cases alone : g.dependenciesOf x = [n]
    · -- This call frees it, and then it waits on nobody any more.
      simp [mem_freedBy_iff_dependenciesOf other, alone]
    · have notNow : x ∉ g.freedBy n := mt (mem_freedBy_iff_dependenciesOf other).1 alone
      have later : ((g.dependenciesOf x).filter (· ≠ n) ≠ [] ∧
            ∀ d ∈ (g.dependenciesOf x).filter (· ≠ n), d ∈ ns) ↔
          (g.dependenciesOf x ≠ [] ∧ ∀ d ∈ g.dependenciesOf x, d ∈ n :: ns) := by
        constructor
        · rintro ⟨waits, all⟩
          refine ⟨fun none => waits (by rw [none]; rfl), fun d mem => ?_⟩
          by_cases same : d = n
          · exact same ▸ List.mem_cons_self
          · exact List.mem_cons_of_mem n (all d (List.mem_filter.2 ⟨mem, decide_eq_true same⟩))
        · rintro ⟨waits, all⟩
          refine ⟨fun none => notNow ?_, fun d mem => ?_⟩
          · -- Without another dependency it would have been freed by this call.
            have only : ∀ d ∈ g.dependenciesOf x, d = n := by
              simpa [List.filter_eq_nil_iff] using none
            obtain ⟨d, mem⟩ := List.exists_mem_of_ne_nil _ waits
            exact mem_freedBy.2 ⟨edge_iff_mem_dependenciesOf.2 (only d mem ▸ mem), other,
              fun d edge => only d (edge_iff_mem_dependenciesOf.1 edge)⟩
          · obtain ⟨mem, differs⟩ := List.mem_filter.1 mem
            exact (List.mem_cons.1 (all d mem)).resolve_left (of_decide_eq_true differs)
      simp only [later, notNow, decide_false, Bool.false_eq_true, if_false, Nat.add_zero]

/-- Resolving the nodes of a list, in any order and with any repetitions, leaves exactly the edges
that touch none of them. A node outside is freed by exactly one of the calls if it waited on
somebody and only on nodes of the list, and by none of them otherwise. So another order leaves the
same graph and frees the same nodes. -/
theorem resolved_in_any_order (g : WaitGraph α) (ns : List α) :
    (ns.foldl resolve g).edges = (g.edges.filter fun e => e.1 ∉ ns ∧ e.2 ∉ ns) ∧
      (∀ x ∉ ns, (g.freedAlong ns).countP (x ∈ ·) =
        if g.dependenciesOf x ≠ [] ∧ ∀ d ∈ g.dependenciesOf x, d ∈ ns then 1 else 0) ∧
      ∀ ms, ns.Perm ms → ns.foldl resolve g = ms.foldl resolve g ∧
        ∀ x ∉ ns, (∃ freed ∈ g.freedAlong ns, x ∈ freed) ↔
          ∃ freed ∈ g.freedAlong ms, x ∈ freed := by
  refine ⟨g.edges_foldl_resolve ns, fun x => g.countP_freedAlong,
    fun ms same => ⟨g.foldl_resolve_perm same, fun x outside => ?_⟩⟩
  have freed (ns : List α) : (∃ freed ∈ g.freedAlong ns, x ∈ freed) ↔
      0 < (g.freedAlong ns).countP (x ∈ ·) := by
    simp [List.countP_pos_iff]
  rw [freed, freed, g.countP_freedAlong outside, g.countP_freedAlong (same.mem_iff.not.1 outside)]
  simp only [same.mem_iff]

/-- Nodes 1 and 2 wait on each other, and node 4 waits on 1 and 3. -/
theorem resolved_in_any_order_of_cycle :
    let g : WaitGraph Nat := (((empty.add 1 2).add 2 1).add 1 4).add 3 4
    4 ∉ [1, 3, 1] ∧ [1, 3, 1].Perm [3, 1, 1] ∧
      (g.freedAlong [1, 3, 1]).countP (4 ∈ ·) = 1 ∧
      [1, 3, 1].foldl resolve g = [3, 1, 1].foldl resolve g ∧
      ((∃ freed ∈ g.freedAlong [1, 3, 1], 4 ∈ freed) ↔
        ∃ freed ∈ g.freedAlong [3, 1, 1], 4 ∈ freed) := by
  intro g
  have outside : 4 ∉ [1, 3, 1] := by decide
  have swapped : [1, 3, 1].Perm [3, 1, 1] := .swap 3 1 [1]
  obtain ⟨_, once, reordered⟩ := resolved_in_any_order g [1, 3, 1]
  obtain ⟨left, freed⟩ := reordered [3, 1, 1] swapped
  exact ⟨outside, swapped, once 4 outside, left, freed 4 outside⟩

end WaitGraph

end AnalysisScheduler
