import AnalysisScheduler.Graph.Closure
import AnalysisScheduler.Proofs.Collection.Distinct
import AnalysisScheduler.Proofs.Collection.OrderedMap
import AnalysisScheduler.Proofs.Graph.Walk

/-!
# Edges and transitive dependants

A wait graph read as a relation: `g.Edge d b` says that `b` waits on `d` itself. The operations are
described by what they do to this relation (`edge_add`, `edge_resolve`, `mem_freedBy`). What the
closure of a node tells is stated for any relation (`Collects`): in a graph without cycles the
transitive dependants of a node can always be collected, and they are the nodes that its edges lead
to (`allDependantsOf_eq_ok`).
-/

namespace AnalysisScheduler

namespace WaitGraph

variable {α : Type u} [DecidableEq α] {g : WaitGraph α}

/-- `b` waits on `d` itself. -/
def Edge (g : WaitGraph α) (d b : α) : Prop := b ∈ g.dependantsOf d

instance (g : WaitGraph α) (d b : α) : Decidable (g.Edge d b) :=
  inferInstanceAs (Decidable (b ∈ g.dependantsOf d))

theorem edge_iff_mem_dependenciesOf {d b : α} : g.Edge d b ↔ d ∈ g.dependenciesOf b := g.agree d b

theorem not_edge_empty (d b : α) : ¬ (empty : WaitGraph α).Edge d b := List.not_mem_nil

theorem edge_add {a b d x : α} : (g.add a b).Edge d x ↔ g.Edge d x ∨ (d = a ∧ x = b) :=
  mem_dependantsOf_add

theorem edge_resolve {n d b : α} : (g.resolve n).Edge d b ↔ g.Edge d b ∧ d ≠ n ∧ b ≠ n :=
  mem_dependantsOf_resolve

theorem nodup_dependantsOf (g : WaitGraph α) (d : α) : (g.dependantsOf d).Nodup :=
  g.unlocks.nodup_targets d

theorem nodup_dependenciesOf (g : WaitGraph α) (b : α) : (g.dependenciesOf b).Nodup :=
  g.awaits.nodup_targets b

/-! ## Questions about the graph -/

theorem isWaiting_iff {b : α} : g.isWaiting b = true ↔ ∃ d, g.Edge d b := by
  have waiting : g.isWaiting b = true ↔ g.dependenciesOf b ≠ [] := by
    unfold isWaiting OrderedMap.contains dependenciesOf
    rw [Adjacency.targets_ne_nil_iff]
    cases h : g.awaits.buckets.get? b with
    | none => simpa [Adjacency.sources] using OrderedMap.get?_eq_none_iff.1 h
    | some bs =>
      have mem := OrderedMap.mem_entries_of_get? h
      exact iff_of_true rfl (List.mem_map_of_mem mem)
  rw [waiting]
  constructor
  · intro some
    obtain ⟨d, mem⟩ := List.exists_mem_of_ne_nil _ some
    exact ⟨d, edge_iff_mem_dependenciesOf.2 mem⟩
  · rintro ⟨d, edge⟩
    exact List.ne_nil_of_mem (edge_iff_mem_dependenciesOf.1 edge)

theorem isResolved_iff : g.isResolved = true ↔ ∀ d b, ¬ g.Edge d b := by
  unfold isResolved Adjacency.isEmpty OrderedMap.isEmpty
  rw [List.isEmpty_iff]
  constructor
  · intro none d b edge
    have source : d ∈ g.unlocks.sources := Adjacency.targets_ne_nil_iff.1 (List.ne_nil_of_mem edge)
    simp [Adjacency.sources, OrderedMap.keys, none] at source
  · intro none
    rw [List.eq_nil_iff_forall_not_mem]
    intro e mem
    have source : e.1 ∈ g.unlocks.sources := List.mem_map_of_mem mem
    obtain ⟨b, edge⟩ := List.exists_mem_of_ne_nil _ (Adjacency.targets_ne_nil_iff.2 source)
    exact none e.1 b edge

theorem eq_empty (none : ∀ d b, ¬ g.Edge d b) : g = empty := by
  have gone (side : Adjacency α) (none : ∀ n, side.targets n = []) : side = .empty := by
    obtain ⟨buckets, nonempty, nodup⟩ := side
    have : buckets = .empty := OrderedMap.eq_empty fun n mem =>
      Adjacency.targets_ne_nil_iff.2 mem (none n)
    subst this
    rfl
  obtain ⟨unlocks, awaits, agree⟩ := g
  have noUnlocks : unlocks = .empty := gone unlocks fun d =>
    List.eq_nil_iff_forall_not_mem.2 (none d)
  have noAwaits : awaits = .empty := gone awaits fun b =>
    List.eq_nil_iff_forall_not_mem.2 fun d mem => none d b ((agree d b).2 mem)
  subst noUnlocks noAwaits
  rfl

theorem dependenciesOf_eq_singleton_iff {n b : α} (waits : g.Edge n b) :
    g.dependenciesOf b = [n] ↔ ∀ d, g.Edge d b → d = n := by
  rw [← not_iff_not, ← ne_eq, (g.nodup_dependenciesOf b).ne_singleton_iff]
  have mem := edge_iff_mem_dependenciesOf.1 waits
  simp [edge_iff_mem_dependenciesOf, List.ne_nil_of_mem mem]

/-- Resolving a node sets those free that wait on it and on nobody else. -/
theorem mem_freedBy {n b : α} :
    b ∈ g.freedBy n ↔ g.Edge n b ∧ b ≠ n ∧ ∀ d, g.Edge d b → d = n := by
  unfold freedBy
  rw [List.mem_filter, decide_eq_true_eq]
  exact and_congr_right fun waits => and_congr_right fun _ => dependenciesOf_eq_singleton_iff waits

theorem nodup_freedBy (g : WaitGraph α) (n : α) : (g.freedBy n).Nodup :=
  (g.nodup_dependantsOf n).filter _

/-! ## Transitive dependants -/

/-- No node waits on itself, not even through others. -/
def Acyclic (g : WaitGraph α) : Prop := ∀ n, ¬ Relation.TransGen g.Edge n n

theorem acyclic_of_wellFounded (founded : WellFounded g.Edge) : g.Acyclic := by
  intro n
  induction n using founded.transGen.induction with
  | _ m ih => exact fun loop => ih m loop loop

/-- What the closure of `n` along a relation tells: a cycle if there is one to be reached, and
otherwise the nodes that `n` leads to, each once. -/
structure Collects (r : α → α → Prop) (n : α) (answer : Except (Circular α) (List α)) : Prop where
  fails_iff : (∃ found, answer = .error found) ↔
    ∃ m, Relation.ReflTransGen r n m ∧ Relation.TransGen r m m
  found : ∀ found, answer = .error found →
    IsSimpleCycle r found.cycle ∧ ∀ m ∈ found.cycle, Relation.ReflTransGen r n m
  collected : ∀ ns, answer = .ok ns →
    ns.Nodup ∧ n ∉ ns ∧ ∀ m, m ∈ ns ↔ Relation.TransGen r n m

omit [DecidableEq α] in
theorem Collects.ok_iff {r : α → α → Prop} {n : α} {answer : Except (Circular α) (List α)}
    (collects : Collects r n answer) : (∃ ns, answer = .ok ns) ↔
      ∀ m, Relation.ReflTransGen r n m → ¬ Relation.TransGen r m m := by
  have fails := collects.fails_iff
  cases answer with
  | ok ns =>
    refine iff_of_true ⟨ns, rfl⟩ fun m reach loop => ?_
    obtain ⟨_, same⟩ := fails.2 ⟨m, reach, loop⟩
    cases same
  | error found =>
    obtain ⟨m, reach, loop⟩ := fails.1 ⟨found, rfl⟩
    exact iff_of_false nofun fun acyclic => acyclic m reach loop

/-- A walk from a node without a cycle follows edges to what the node leads to. -/
theorem mem_map_snd_followed_walk {table : Walk.Successors α} {n m : α}
    (clear : (walk table [n]).cycle = none) :
    m ∈ (walk table [n]).followed.map Prod.snd ↔ Relation.TransGen (Walk.Leads table) n m := by
  constructor
  · intro mem
    obtain ⟨⟨a, c⟩, followed, rfl⟩ := List.mem_map.1 mem
    obtain ⟨entered, leads⟩ := (Walk.mem_followed_walk clear).1 followed
    obtain ⟨s, start, reach⟩ := (Walk.mem_entered_walk clear).1 entered
    rw [List.mem_singleton.1 start] at reach
    exact Relation.TransGen.tail' reach leads
  · intro path
    obtain ⟨a, reach, edge⟩ := Relation.TransGen.tail'_iff.1 path
    have entered := (Walk.mem_entered_walk clear).2 ⟨n, List.mem_singleton_self n, reach⟩
    exact List.mem_map_of_mem (f := Prod.snd) ((Walk.mem_followed_walk clear).2 ⟨entered, edge⟩)

theorem collects_closure (side : Adjacency α) (n : α) :
    Collects (Walk.Leads side.buckets) n (closure side n) := by
  unfold closure
  dsimp only
  split
  · rename_i nodes found
    obtain ⟨simple, met⟩ := Walk.isSimpleCycle_walk found
    have reached (m : α) (mem : m ∈ nodes) :
        Relation.ReflTransGen (Walk.Leads side.buckets) n m := by
      obtain ⟨s, bound, reach⟩ := Walk.reachable_of_mem_entered (met m mem)
      exact List.mem_singleton.1 (Walk.bound_starts.1 bound) ▸ reach
    obtain ⟨m, mem, loop⟩ := simple.exists_mem_transGen
    refine ⟨iff_of_true ⟨_, rfl⟩ ⟨m, reached m mem, loop⟩, ?_, ?_⟩
    · rintro _ ⟨⟩
      exact ⟨simple, reached⟩
    · rintro _ ⟨⟩
  · rename_i clear
    have acyclic := Walk.cycle_walk_eq_none_iff.1 clear n (List.mem_singleton_self n)
    have mem_iff (m : α) : m ∈ ((walk side.buckets [n]).followed.map Prod.snd).eraseDups ↔
        Relation.TransGen (Walk.Leads side.buckets) n m := by
      rw [List.mem_eraseDups, mem_map_snd_followed_walk clear]
    refine ⟨iff_of_false ?_ ?_, ?_, ?_⟩
    · rintro ⟨_, ⟨⟩⟩
    · rintro ⟨m, reach, loop⟩
      exact acyclic m reach loop
    · rintro _ ⟨⟩
    · rintro _ ⟨⟩
      exact ⟨nodup_eraseDups _, mt (mem_iff n).1 (acyclic n .refl), mem_iff⟩

theorem collects_allDependantsOf (g : WaitGraph α) (n : α) :
    Collects g.Edge n (g.allDependantsOf n) :=
  collects_closure g.unlocks n

/-- Without cycles the transitive dependants of a node can be collected. -/
theorem allDependantsOf_eq_ok (acyclic : g.Acyclic) (n : α) :
    ∃ dependants, g.allDependantsOf n = .ok dependants ∧
      ∀ b, b ∈ dependants ↔ Relation.TransGen g.Edge n b := by
  have collects := g.collects_allDependantsOf n
  obtain ⟨dependants, same⟩ := collects.ok_iff.2 fun m _ => acyclic m
  exact ⟨dependants, same, (collects.collected dependants same).2.2⟩

end WaitGraph

end AnalysisScheduler
