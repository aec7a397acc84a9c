import AnalysisScheduler.Proofs.Graph.Resolution
import Mathlib.Data.Prod.Basic

/-!
# Graphs as lists of edges

A graph that is changed step by step beside a plain list of its edges, oldest first: a new edge goes
to the end of the list, and resolving a node deletes every edge that touches it. Each side of the
graph lists the same edges as the list all the time (`Adjacency.Lists`), the side of the dependants
the edges turned round. So every question about the graph is answered by the list
(`answers_from_edge_list`), with the dependants and dependencies of a node in the order of the list.
-/

namespace AnalysisScheduler

variable {α : Type u} [DecidableEq α]

namespace Adjacency

variable {g : Adjacency α} {es : List (α × α)}

theorem mem_edges_iff {e : α × α} : e ∈ g.edges ↔ e.2 ∈ g.targets e.1 := by
  unfold edges targets
  rw [List.mem_flatMap]
  constructor
  · rintro ⟨⟨a, bs⟩, mem, here⟩
    obtain ⟨b, target, rfl⟩ := List.mem_map.1 here
    rw [OrderedMap.get?_eq_some_iff.2 mem]
    exact target
  · intro target
    cases found : g.buckets.get? e.1 with
    | none =>
      rw [found] at target
      exact absurd target List.not_mem_nil
    | some bs =>
      rw [found] at target
      exact ⟨_, OrderedMap.get?_eq_some_iff.1 found, List.mem_map_of_mem target⟩

omit [DecidableEq α] in
theorem nodup_edges (g : Adjacency α) : g.edges.Nodup := by
  refine List.nodup_flatMap.2 ⟨fun e mem => ?_, ?_⟩
  · exact (g.nodup e mem).map fun b c same => (Prod.mk.inj same).2
  · -- Buckets of different sources have no edge in common.
    refine (List.pairwise_map.1 g.buckets.distinct).imp fun apart => ?_
    refine List.disjoint_left.2 fun edge left right => ?_
    obtain ⟨b, _, rfl⟩ := List.mem_map.1 left
    obtain ⟨c, _, same⟩ := List.mem_map.1 right
    exact apart (Prod.mk.inj same).1.symm

/-- The edges by source are those of a list, and each bucket has them in the order of the list. -/
structure Lists (g : Adjacency α) (es : List (α × α)) : Prop where
  nodup : es.Nodup
  targets : ∀ x, g.targets x = (es.filter (·.1 = x)).map Prod.snd

namespace Lists

theorem mem_targets_iff (lists : Lists g es) {a b : α} : b ∈ g.targets a ↔ (a, b) ∈ es := by
  rw [lists.targets, List.mem_map]
  constructor
  · rintro ⟨e, mem, rfl⟩
    obtain ⟨mem, here⟩ := List.mem_filter.1 mem
    exact of_decide_eq_true here ▸ mem
  · exact fun mem => ⟨(a, b), List.mem_filter.2 ⟨mem, decide_eq_true rfl⟩, rfl⟩

theorem empty : Lists (.empty : Adjacency α) [] := ⟨.nil, fun _ => rfl⟩

theorem link (lists : Lists g es) (a b : α) : Lists (g.link a b) (appendNew es (a, b)) := by
  refine ⟨nodup_appendNew lists.nodup (a, b), fun x => ?_⟩
  rw [targets_link]
  by_cases old : (a, b) ∈ es
  · rw [appendNew_of_mem old, appendNew_of_mem (lists.mem_targets_iff.2 old), ← lists.targets]
    split
    · rename_i here
      rw [here]
    · rfl
  · rw [appendNew_of_not_mem old, appendNew_of_not_mem (mt lists.mem_targets_iff.1 old),
      List.filter_append, List.map_append, ← lists.targets]
    split
    · rename_i here
      rw [here]
      simp
    · rename_i elsewhere
      simp [Ne.symm elsewhere]

theorem isolate (lists : Lists g es) (d : α) :
    Lists (g.isolate d) (es.filter fun e => e.1 ≠ d ∧ e.2 ≠ d) := by
  refine ⟨lists.nodup.filter _, fun x => ?_⟩
  rw [targets_isolate, List.filter_filter]
  split
  · rename_i own
    have none : (es.filter fun e => decide (e.1 = x) && decide (e.1 ≠ d ∧ e.2 ≠ d)) = [] :=
      List.filter_eq_nil_iff.2 fun e _ => by simp +contextual [own]
    rw [none, List.map_nil]
  · rename_i other
    rw [lists.targets, List.filter_map, List.filter_filter]
    refine congrArg _ (List.filter_congr fun e _ => ?_)
    rw [Bool.eq_iff_iff]
    simp only [Function.comp_apply, Bool.and_eq_true, decide_eq_true_eq]
    constructor
    · rintro ⟨apart, rfl⟩
      exact ⟨rfl, other, apart⟩
    · rintro ⟨here, _, apart⟩
      exact ⟨apart, here⟩

theorem mem_sources_iff (lists : Lists g es) {x : α} : x ∈ g.sources ↔ x ∈ es.map Prod.fst := by
  rw [← targets_ne_nil_iff, List.mem_map]
  constructor
  · intro some
    obtain ⟨b, mem⟩ := List.exists_mem_of_ne_nil _ some
    exact ⟨(x, b), lists.mem_targets_iff.1 mem, rfl⟩
  · rintro ⟨⟨x, b⟩, mem, rfl⟩
    exact List.ne_nil_of_mem (lists.mem_targets_iff.2 mem)

theorem perm_edges (lists : Lists g es) : g.edges.Perm es :=
  (List.perm_ext_iff_of_nodup g.nodup_edges lists.nodup).2 fun _ =>
    mem_edges_iff.trans lists.mem_targets_iff

end Lists

end Adjacency

/-- A step in which a graph changes. -/
inductive Change (α : Type u) where
  | add (dependency dependant : α)
  | resolve (node : α)
deriving DecidableEq, Repr

namespace Change

/-- What a change does to a graph. -/
def applyTo (g : WaitGraph α) : Change α → WaitGraph α
  | add dependency dependant => g.add dependency dependant
  | resolve node => g.resolve node

/-- What a change does to a list of edges. -/
def applyToList (es : List (α × α)) : Change α → List (α × α)
  | add dependency dependant => appendNew es (dependency, dependant)
  | resolve node => es.filter fun e => e.1 ≠ node ∧ e.2 ≠ node

/-- The graph after some changes. -/
def graphAfter (changes : List (Change α)) : WaitGraph α := changes.foldl applyTo .empty

/-- The edges after some changes, oldest first. -/
def edgesAfter (changes : List (Change α)) : List (α × α) := changes.foldl applyToList []

end Change

namespace WaitGraph

variable {g : WaitGraph α} {es : List (α × α)}

/-- Both sides of a graph have the edges of a list, in its order. -/
structure Lists (g : WaitGraph α) (es : List (α × α)) : Prop where
  unlocks : g.unlocks.Lists es
  awaits : g.awaits.Lists (es.map Prod.swap)

namespace Lists

theorem apply (lists : Lists g es) (change : Change α) :
    Lists (change.applyTo g) (change.applyToList es) := by
  cases change with
  | add dependency dependant =>
    refine ⟨lists.unlocks.link dependency dependant, ?_⟩
    have turned := lists.awaits.link dependant dependency
    rwa [Change.applyToList, map_appendNew fun _ _ same => Prod.swap_injective same]
  | resolve node =>
    refine ⟨lists.unlocks.isolate node, ?_⟩
    have turned := lists.awaits.isolate node
    have same : (es.map Prod.swap).filter (fun e => e.1 ≠ node ∧ e.2 ≠ node) =
        (es.filter fun e => e.1 ≠ node ∧ e.2 ≠ node).map Prod.swap := by
      rw [List.filter_map]
      refine congrArg _ (List.filter_congr fun e _ => ?_)
      rw [Function.comp_apply, decide_eq_decide, and_comm]
      rfl
    exact same ▸ turned

/-- The list keeps up with the graph through any changes. -/
theorem after (changes : List (Change α)) :
    Lists (Change.graphAfter changes) (Change.edgesAfter changes) := by
  have along (changes : List (Change α)) {g : WaitGraph α} {es : List (α × α)}
      (lists : Lists g es) :
      Lists (changes.foldl Change.applyTo g) (changes.foldl Change.applyToList es) := by
    induction changes generalizing g es with
    | nil => exact lists
    | cons change rest ih => exact ih (lists.apply change)
  exact along changes ⟨.empty, .empty⟩

theorem edge_iff (lists : Lists g es) {a b : α} : g.Edge a b ↔ (a, b) ∈ es :=
  lists.unlocks.mem_targets_iff

theorem mem_dependants_iff (lists : Lists g es) {x : α} :
    x ∈ g.dependants ↔ x ∈ es.map Prod.snd := by
  refine lists.awaits.mem_sources_iff.trans ?_
  rw [List.map_map]
  rfl

theorem dependenciesOf_eq (lists : Lists g es) (x : α) :
    g.dependenciesOf x = (es.filter (·.2 = x)).map Prod.fst := by
  refine (lists.awaits.targets x).trans ?_
  rw [List.filter_map, List.map_map]
  rfl

/-- A dependant is free if every edge of the list that leads to it comes from the node. -/
theorem freedBy_eq (lists : Lists g es) (d : α) :
    g.freedBy d = (g.dependantsOf d).filter fun x => x ≠ d ∧ ∀ e ∈ es, e.2 = x → e.1 = d := by
  refine List.filter_congr fun x waits => ?_
  rw [decide_eq_decide, dependenciesOf_eq_singleton_iff waits]
  refine and_congr_right fun _ => ⟨fun only e mem here => ?_, fun only c edge => ?_⟩
  · exact only e.1 (lists.edge_iff.2 (here ▸ mem))
  · exact only (c, x) (lists.edge_iff.1 edge) rfl

end Lists

/-- After any changes, a graph answers as the list of its edges does: who waits on whom in the order
of the list, the dependencies, the dependants and the edges without repetition, and how many edges
there are. Resolving a node edge by edge leaves what `resolve` leaves, and finds those to be free
that wait on the node and, in the list, on nobody else. -/
theorem answers_from_edge_list (changes : List (Change α)) :
    let g := Change.graphAfter changes
    let es := Change.edgesAfter changes
    (∀ x, g.dependantsOf x = (es.filter (·.1 = x)).map Prod.snd) ∧
      (∀ x, g.dependenciesOf x = (es.filter (·.2 = x)).map Prod.fst) ∧
      (g.dependencies.Nodup ∧ ∀ x, x ∈ g.dependencies ↔ x ∈ es.map Prod.fst) ∧
      (g.dependants.Nodup ∧ ∀ x, x ∈ g.dependants ↔ x ∈ es.map Prod.snd) ∧
      (g.edges.Nodup ∧ ∀ e, e ∈ g.edges ↔ e ∈ es) ∧
      (∀ x, g.isWaiting x = true ↔ x ∈ es.map Prod.snd) ∧
      g.size = es.length ∧ (g.isResolved = true ↔ es = []) ∧
      ∀ d, g.dismantle d = ((g.resolve d).unlocks, (g.resolve d).awaits, g.freedBy d) ∧
        g.freedBy d = (g.dependantsOf d).filter fun x => x ≠ d ∧ ∀ e ∈ es, e.2 = x → e.1 = d := by
  intro g es
  have lists : Lists g es := .after changes
  refine ⟨lists.unlocks.targets, lists.dependenciesOf_eq,
    ⟨g.unlocks.buckets.distinct, fun _ => lists.unlocks.mem_sources_iff⟩,
    ⟨g.awaits.buckets.distinct, fun _ => lists.mem_dependants_iff⟩,
    ⟨g.unlocks.nodup_edges, fun _ => lists.unlocks.perm_edges.mem_iff⟩, fun x => ?_,
    lists.unlocks.perm_edges.length_eq, ?_, fun d => ⟨g.dismantle_eq d, lists.freedBy_eq d⟩⟩
  · rw [← lists.mem_dependants_iff]
    exact OrderedMap.contains_iff
  · rw [isResolved_iff, List.eq_nil_iff_forall_not_mem]
    exact ⟨fun none e mem => none e.1 e.2 (lists.edge_iff.2 mem),
      fun none a b edge => none (a, b) (lists.edge_iff.1 edge)⟩

/-- The node that waits on itself comes back behind the others. -/
example : Change.edgesAfter [.add 1 2, .add 2 2, .add 1 3, .resolve 2, .add 2 3, .add 1 2] =
    [(1, 3), (2, 3), (1, 2)] := by decide

end WaitGraph

end AnalysisScheduler
