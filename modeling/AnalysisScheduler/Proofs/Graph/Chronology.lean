import AnalysisScheduler.Proofs.Graph.EdgeList

/-!
# In which order all edges are listed

The edges of a graph are listed dependency by dependency, so they do not in general come in the
order in which they were added (`edges_not_oldest_first`). Only those of one dependency do. The
dependencies themselves come in the order in which they last began to be waited on: `a` comes before
`b` if at some time nobody waited on `b` and somebody did on `a`, from then on without a break
(`Change.Precedes`). This order and that of the edges of each dependency are all there is to the
list (`edges_grouped_by_dependency`).
-/

namespace AnalysisScheduler

theorem pair_sublist_filter {α : Type u} {p : α → Bool} {a b : α} {xs : List α} :
    [a, b].Sublist (xs.filter p) ↔
      a ∈ xs.filter p ∧ b ∈ xs.filter p ∧ [a, b].Sublist xs := by
  constructor
  · intro pair
    exact ⟨pair.subset (by simp), pair.subset (by simp), pair.trans List.filter_sublist⟩
  · rintro ⟨first, second, pair⟩
    have kept : [a, b].filter p = [a, b] := by
      simp [(List.mem_filter.1 first).2, (List.mem_filter.1 second).2]
    exact kept ▸ pair.filter p

theorem pair_sublist_concat {α : Type u} {a b x : α} {xs : List α} :
    [a, b].Sublist (xs ++ [x]) ↔ [a, b].Sublist xs ∨ (a ∈ xs ∧ b = x) := by
  have turned : [b, a].Sublist xs.reverse ↔ [a, b].Sublist xs :=
    show [a, b].reverse.Sublist xs.reverse ↔ _ from List.reverse_sublist
  rw [← List.reverse_sublist, List.reverse_concat]
  simp [List.cons_sublist_cons', turned, and_comm]

variable {α : Type u} [DecidableEq α]

theorem pair_sublist_appendNew {a b x : α} {xs : List α} :
    [a, b].Sublist (appendNew xs x) ↔
      a ∈ appendNew xs x ∧ b ∈ appendNew xs x ∧ ([a, b].Sublist xs ∨ (a ∈ xs ∧ b ∉ xs)) := by
  by_cases old : x ∈ xs
  · rw [appendNew_of_mem old]
    constructor
    · exact fun pair => ⟨pair.subset (by simp), pair.subset (by simp), .inl pair⟩
    · exact fun ⟨_, second, pair⟩ => pair.resolve_right fun met => met.2 second
  · rw [appendNew_of_not_mem old]
    constructor
    · intro pair
      refine ⟨pair.subset (by simp), pair.subset (by simp), ?_⟩
      rcases pair_sublist_concat.1 pair with pair | ⟨mem, rfl⟩
      · exact .inl pair
      · exact .inr ⟨mem, old⟩
    · rintro ⟨_, second, pair | ⟨mem, unmet⟩⟩
      · exact pair_sublist_concat.2 (.inl pair)
      · have last := (List.mem_append.1 second).resolve_left unmet
        exact pair_sublist_concat.2 (.inr ⟨mem, List.mem_singleton.1 last⟩)

namespace Adjacency

variable {g : Adjacency α} {es : List (α × α)}

theorem edges_eq_flatMap_sources (g : Adjacency α) :
    g.edges = g.sources.flatMap fun a => (g.targets a).map (a, ·) := by
  refine (g.buckets.flatMap_entries fun a bs => bs.map (a, ·)).trans ?_
  refine List.flatMap_congr fun a _ => ?_
  unfold targets
  cases g.buckets.get? a <;> simp

theorem Lists.edges_eq (lists : g.Lists es) :
    g.edges = g.sources.flatMap fun a => es.filter (·.1 = a) := by
  rw [edges_eq_flatMap_sources]
  refine List.flatMap_congr fun a _ => ?_
  rw [lists.targets, List.map_map]
  refine (List.map_congr_left fun e mem => ?_).trans (List.map_id _)
  rw [← of_decide_eq_true (List.mem_filter.1 mem).2]
  rfl

theorem sources_link (g : Adjacency α) (a b : α) :
    (g.link a b).sources = appendNew g.sources a :=
  OrderedMap.keys_insert ..

theorem exists_sources_isolate (g : Adjacency α) (d : α) :
    ∃ p, (g.isolate d).sources = g.sources.filter p :=
  ⟨_, OrderedMap.keys_filterMap ..⟩

end Adjacency

namespace Change

/-- Somebody waits on `a` after the changes. -/
def Awaited (changes : List (Change α)) (a : α) : Prop := ∃ b, (a, b) ∈ edgesAfter changes

/-- At some time nobody waited on `b` and somebody did on `a`, and since then somebody has always
waited on `a`. -/
def Precedes (changes : List (Change α)) (a b : α) : Prop :=
  ∃ before after, changes = before ++ after ∧ ¬ Awaited before b ∧
    ∀ part, part <+: after → Awaited (before ++ part) a

variable {changes : List (Change α)} {change : Change α} {a b : α}

theorem mem_dependencies_iff : a ∈ (graphAfter changes).dependencies ↔ Awaited changes a := by
  refine (WaitGraph.Lists.after changes).unlocks.mem_sources_iff.trans ?_
  simp [Awaited]

theorem graphAfter_concat (changes : List (Change α)) (change : Change α) :
    graphAfter (changes ++ [change]) = change.applyTo (graphAfter changes) :=
  List.foldl_concat ..

theorem Precedes.awaited (precedes : Precedes changes a b) : Awaited changes a := by
  obtain ⟨before, after, rfl, _, always⟩ := precedes
  exact always after List.prefix_rfl

/-- A node that nobody waits on comes after all that somebody waits on. -/
theorem precedes_of_not_awaited (free : ¬ Awaited changes b) :
    Precedes changes a b ↔ Awaited changes a := by
  refine ⟨Precedes.awaited, fun awaited => ⟨changes, [], (List.append_nil _).symm, free, ?_⟩⟩
  intro part here
  rw [List.prefix_nil.1 here, List.append_nil]
  exact awaited

theorem precedes_concat : Precedes (changes ++ [change]) a b ↔
    Awaited (changes ++ [change]) a ∧
      (Precedes changes a b ∨ ¬ Awaited (changes ++ [change]) b) := by
  constructor
  · intro precedes
    refine ⟨precedes.awaited, ?_⟩
    obtain ⟨before, after, split, free, always⟩ := precedes
    rcases List.eq_nil_or_concat after with rfl | ⟨after, last, rfl⟩
    · rw [split, List.append_nil]
      exact .inr free
    · rw [List.concat_eq_append, ← List.append_assoc] at split
      obtain ⟨rfl, _⟩ := List.append_inj' split rfl
      refine .inl ⟨before, after, rfl, free, fun part here => always part ?_⟩
      exact here.trans (List.concat_eq_append ▸ List.prefix_append after [last])
  · rintro ⟨awaited, ⟨before, after, rfl, free, always⟩ | free⟩
    · refine ⟨before, after ++ [change], List.append_assoc .., free, fun part here => ?_⟩
      rcases List.prefix_concat_iff.1 here with rfl | earlier
      · exact List.append_assoc .. ▸ awaited
      · exact always part earlier
    · exact (precedes_of_not_awaited free).2 awaited

/-- A change keeps the order of two dependencies that stay, and a new one comes last. -/
theorem pair_sublist_dependencies_applyTo (g : WaitGraph α) :
    [a, b].Sublist (change.applyTo g).dependencies ↔
      a ∈ (change.applyTo g).dependencies ∧ b ∈ (change.applyTo g).dependencies ∧
        ([a, b].Sublist g.dependencies ∨ (a ∈ g.dependencies ∧ b ∉ g.dependencies)) := by
  cases change with
  | add dependency dependant =>
    have grown : ((add dependency dependant).applyTo g).dependencies =
        appendNew g.dependencies dependency := g.unlocks.sources_link dependency dependant
    rw [grown]
    exact pair_sublist_appendNew
  | resolve node =>
    obtain ⟨p, left⟩ : ∃ p, ((resolve node).applyTo g).dependencies = g.dependencies.filter p :=
      g.unlocks.exists_sources_isolate node
    rw [left, pair_sublist_filter]
    refine and_congr_right fun _ => and_congr_right fun second => ?_
    exact (or_iff_left fun met => met.2 (List.mem_of_mem_filter second)).symm

theorem pair_sublist_dependencies_iff : [a, b].Sublist (graphAfter changes).dependencies ↔
    Awaited changes b ∧ Precedes changes a b := by
  induction changes using List.reverseRecOn with
  | nil =>
    have none : (graphAfter ([] : List (Change α))).dependencies = [] := rfl
    simp [none, Awaited, edgesAfter]
  | append_singleton changes change ih =>
    rw [precedes_concat, graphAfter_concat, pair_sublist_dependencies_applyTo, ih,
      ← graphAfter_concat, mem_dependencies_iff, mem_dependencies_iff, mem_dependencies_iff,
      mem_dependencies_iff, and_left_comm]
    refine and_congr_right fun awaited => and_congr_right fun _ => ?_
    rw [or_iff_left (not_not_intro awaited)]
    -- A node that nobody waited on before the change is a new dependency, and so the last one.
    by_cases old : Awaited changes b
    · simp [old]
    · simp [old, precedes_of_not_awaited old]

end Change

namespace WaitGraph

/-- After any changes, each edge is listed once, dependency by dependency. The edges of one
dependency come in the order in which they were added, and the dependencies in the order in which
they last began to be waited on. -/
theorem edges_grouped_by_dependency (changes : List (Change α)) :
    let g := Change.graphAfter changes
    let es := Change.edgesAfter changes
    g.edges.Nodup ∧ g.edges.Perm es ∧
      g.edges = g.dependencies.flatMap (fun a => es.filter (·.1 = a)) ∧
      g.dependencies.Nodup ∧ (∀ a, a ∈ g.dependencies ↔ Change.Awaited changes a) ∧
      ∀ a b, [a, b].Sublist g.dependencies ↔
        Change.Awaited changes b ∧ Change.Precedes changes a b := by
  intro g es
  have lists : g.Lists es := .after changes
  exact ⟨g.unlocks.nodup_edges, lists.unlocks.perm_edges, lists.unlocks.edges_eq,
    g.unlocks.buckets.distinct, fun _ => Change.mem_dependencies_iff,
    fun _ _ => Change.pair_sublist_dependencies_iff⟩

/-- The edges of one dependency stand together, even if one of another was added in between. -/
theorem edges_not_oldest_first : ¬ ∀ changes : List (Change Nat),
    (Change.graphAfter changes).edges = Change.edgesAfter changes :=
  fun all => absurd (all [.add 1 2, .add 3 4, .add 1 5]) (by decide)

end WaitGraph

end AnalysisScheduler
