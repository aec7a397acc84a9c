import AnalysisScheduler.Collection.OrderedMap
import AnalysisScheduler.Collection.Distinct

/-!
# Adjacency by source

The edges of a directed graph, kept in one bucket for each source. Sources come in the order in
which they got their first edge, and a bucket lists its targets in the order in which they were
linked. A source whose last edge goes loses its bucket, so it comes last when it is linked again.

`mem_targets_link` and `mem_targets_isolate` say which edges an operation leaves.
-/

namespace AnalysisScheduler

/-- Edges by source; no bucket is empty and none has a target twice. -/
structure Adjacency (α : Type u) where
  buckets : OrderedMap α (List α)
  nonempty : ∀ e ∈ buckets.entries, e.2 ≠ []
  nodup : ∀ e ∈ buckets.entries, e.2.Nodup
deriving DecidableEq

namespace Adjacency

variable {α : Type u}

/-- The graph without edges. -/
def empty : Adjacency α := ⟨.empty, nofun, nofun⟩

/-- The nodes that an edge leaves. -/
def sources (g : Adjacency α) : List α := g.buckets.keys

def isEmpty (g : Adjacency α) : Bool := g.buckets.isEmpty

/-- Every edge once, source by source. -/
def edges (g : Adjacency α) : List (α × α) :=
  g.buckets.entries.flatMap fun e => e.2.map (e.1, ·)

/-- The number of edges. -/
def size (g : Adjacency α) : Nat := g.edges.length

variable [DecidableEq α]

/-- The nodes that an edge from `a` leads to. -/
def targets (g : Adjacency α) (a : α) : List α := (g.buckets.get? a).getD []

theorem nodup_targets (g : Adjacency α) (a : α) : (g.targets a).Nodup := by
  unfold targets
  cases h : g.buckets.get? a with
  | none => simp
  | some bs => exact g.nodup _ (OrderedMap.mem_entries_of_get? h)

theorem targets_ne_nil_iff {g : Adjacency α} {a : α} : g.targets a ≠ [] ↔ a ∈ g.sources := by
  unfold targets sources
  cases h : g.buckets.get? a with
  | none => simpa using OrderedMap.get?_eq_none_iff.1 h
  | some bs =>
    have mem := OrderedMap.mem_entries_of_get? h
    simpa [g.nonempty _ mem, OrderedMap.keys] using ⟨bs, mem⟩

/-- Adds the edge from `a` to `b`; an edge that is there already stays where it is. -/
def link (g : Adjacency α) (a b : α) : Adjacency α where
  buckets := g.buckets.insert a (appendNew (g.targets a) b)
  nonempty e he := by
    rcases OrderedMap.mem_entries_insert he with rfl | he
    · exact appendNew_ne_nil _ _
    · exact g.nonempty e he
  nodup e he := by
    rcases OrderedMap.mem_entries_insert he with rfl | he
    · exact nodup_appendNew (g.nodup_targets a) b
    · exact g.nodup e he

/-- What is left of a bucket when the edges that touch `d` are gone. -/
def restOfBucket (d a : α) (bs : List α) : Option (List α) :=
  if a = d then none else
    match bs.filter (· ≠ d) with
    | [] => none
    | rest => some rest

/-- Removes every edge that starts or ends at `d`. -/
def isolate (g : Adjacency α) (d : α) : Adjacency α where
  buckets := g.buckets.filterMap (restOfBucket d)
  nonempty e he := by
    obtain ⟨bs, _, h⟩ := OrderedMap.mem_entries_filterMap.1 he
    unfold restOfBucket at h
    split at h
    · cases h
    · split at h
      · cases h
      · rename_i hne
        simp only [Option.some.injEq] at h
        intro hnil
        exact hne (h.trans hnil)
  nodup e he := by
    obtain ⟨bs, hbs, h⟩ := OrderedMap.mem_entries_filterMap.1 he
    unfold restOfBucket at h
    split at h
    · cases h
    · split at h
      · cases h
      · simp only [Option.some.injEq] at h
        rw [← h]
        exact (g.nodup _ hbs).sublist List.filter_sublist

theorem targets_link (g : Adjacency α) (a b x : α) :
    (g.link a b).targets x = if x = a then appendNew (g.targets a) b else g.targets x := by
  unfold targets link
  rw [OrderedMap.get?_insert]
  split <;> rfl

theorem mem_targets_link {g : Adjacency α} {a b x y : α} :
    y ∈ (g.link a b).targets x ↔ y ∈ g.targets x ∨ (x = a ∧ y = b) := by
  rw [targets_link]
  by_cases h : x = a
  · subst h
    simp [mem_appendNew]
  · simp [h]

theorem targets_isolate (g : Adjacency α) (d x : α) :
    (g.isolate d).targets x = if x = d then [] else (g.targets x).filter (· ≠ d) := by
  unfold targets isolate
  rw [OrderedMap.get?_filterMap]
  cases g.buckets.get? x with
  | none => simp
  | some bs =>
    rw [Option.bind_some]
    unfold restOfBucket
    by_cases h : x = d
    · simp [h]
    · rw [if_neg h, if_neg h, Option.getD_some]
      split
      · rename_i hnil
        rw [hnil]; rfl
      · rfl

theorem mem_targets_isolate {g : Adjacency α} {d x y : α} :
    y ∈ (g.isolate d).targets x ↔ y ∈ g.targets x ∧ x ≠ d ∧ y ≠ d := by
  rw [targets_isolate]
  by_cases h : x = d <;> simp [h]

/-- Isolating a node takes away at least the edges that leave it. -/
theorem size_isolate_add_le (g : Adjacency α) (d : α) :
    (g.isolate d).size + (g.targets d).length ≤ g.size := by
  have rest_le : ∀ a bs rest, restOfBucket d a bs = some rest → rest.length ≤ bs.length := by
    intro a bs rest h
    unfold restOfBucket at h
    split at h
    · cases h
    · split at h
      · cases h
      · simp only [Option.some.injEq] at h
        rw [← h]
        exact List.length_filter_le _ _
  have aux : ∀ es : List (α × List α), (es.map Prod.fst).Nodup →
      ((es.filterMap fun e => (restOfBucket d e.1 e.2).map (e.1, ·)).flatMap
          fun e => e.2.map (e.1, ·)).length + ((es.lookup d).getD []).length ≤
        (es.flatMap fun e => e.2.map (e.1, ·)).length := by
    intro es
    induction es with
    | nil => intro _; simp
    | cons e es ih =>
      obtain ⟨a, bs⟩ := e
      intro nd
      rw [List.map_cons, List.nodup_cons] at nd
      specialize ih nd.2
      rw [List.filterMap_cons, OrderedMap.lookup_cons_eq]
      by_cases h : d = a
      · subst h
        rw [OrderedMap.lookup_eq_none_iff.2 nd.1] at ih
        simp only [restOfBucket, if_true, Option.map_none, Option.getD_some, List.flatMap_cons,
          List.length_append, List.length_map]
        simp only [restOfBucket, Option.getD_none, List.length_nil] at ih
        omega
      · rw [if_neg h]
        cases hrest : restOfBucket d a bs with
        | none =>
          simp only [Option.map_none, List.flatMap_cons, List.length_append, List.length_map]
          omega
        | some rest =>
          have := rest_le a bs rest hrest
          simp only [Option.map_some, List.flatMap_cons, List.length_append, List.length_map]
          omega
  exact aux g.buckets.entries g.buckets.distinct

end Adjacency

end AnalysisScheduler
