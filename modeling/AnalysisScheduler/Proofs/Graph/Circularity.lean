import AnalysisScheduler.Proofs.Graph.Closure
import Mathlib.Data.List.TFAE
import Mathlib.Tactic.TFAE

/-!
# Cycles and closures, from both sides

The transitive dependants of a node are collected from the one side of a wait graph and its
transitive dependencies from the other. Both sides hold the same edges, so the two closures are
right for one relation and its converse (`collects_allDependantsOf`, `collects_allDependenciesOf`),
and they are each other's mirror image.

The check for cycles starts from the dependencies only. No cycle escapes it, since each node of a
cycle is a dependency of the next one (`checkAcyclic_eq_ok_iff`).
-/

namespace AnalysisScheduler

namespace WaitGraph

variable {α : Type u} [DecidableEq α]

theorem leads_awaits (g : WaitGraph α) : Walk.Leads g.awaits.buckets = Function.swap g.Edge := by
  funext b d
  exact propext edge_iff_mem_dependenciesOf.symm

theorem collects_allDependenciesOf (g : WaitGraph α) (n : α) :
    Collects (Function.swap g.Edge) n (g.allDependenciesOf n) :=
  g.leads_awaits ▸ collects_closure g.awaits n

omit [DecidableEq α] in
/-- Each closure can be collected exactly if there is no cycle. -/
theorem Collects.all_ok_iff {r : α → α → Prop} {answer : α → Except (Circular α) (List α)}
    (collects : ∀ n, Collects r n (answer n)) :
    (∀ n, ∃ ns, answer n = .ok ns) ↔ ∀ n, ¬ Relation.TransGen r n n := by
  constructor
  · exact fun all n => (collects n).ok_iff.1 (all n) n .refl
  · exact fun acyclic n => (collects n).ok_iff.2 fun m _ => acyclic m

theorem checkAcyclic_eq_ok_iff {g : WaitGraph α} : g.checkAcyclic = .ok () ↔ g.Acyclic := by
  have clear : g.checkAcyclic = .ok () ↔ (walk g.unlocks.buckets g.dependencies).cycle = none := by
    unfold checkAcyclic
    split
    · rename_i found
      rw [found]
      exact iff_of_false nofun nofun
    · rename_i clear
      exact iff_of_true rfl clear
  rw [clear, Walk.cycle_walk_eq_none_iff]
  constructor
  · intro acyclic n loop
    obtain ⟨m, first, _⟩ := Relation.TransGen.head'_iff.1 loop
    have source : n ∈ g.dependencies := Adjacency.targets_ne_nil_iff.1 (List.ne_nil_of_mem first)
    exact acyclic n source n .refl loop
  · exact fun acyclic _ _ n _ => acyclic n

/-- What waits on a node, directly or through others, is found from either end. -/
theorem exists_closures {g : WaitGraph α} (acyclic : g.Acyclic) (x y : α) :
    ∃ dependants dependencies, g.allDependantsOf x = .ok dependants ∧
      g.allDependenciesOf y = .ok dependencies ∧ (y ∈ dependants ↔ x ∈ dependencies) := by
  have down := g.collects_allDependantsOf x
  have up := g.collects_allDependenciesOf y
  obtain ⟨dependants, ok⟩ := down.ok_iff.2 fun m _ => acyclic m
  obtain ⟨dependencies, ok'⟩ := up.ok_iff.2 fun m _ loop =>
    acyclic m (Relation.transGen_swap.1 loop)
  refine ⟨dependants, dependencies, ok, ok', ?_⟩
  rw [(down.collected _ ok).2.2, (up.collected _ ok').2.2, Relation.transGen_swap]

/-- The transitive dependants of a node are what its edges lead to, and its transitive dependencies
what the edges lead to when they are turned round; either cannot be told exactly if a cycle can be
reached that way. The check for cycles finds one exactly if there is one, which is to say that some
closure cannot be told, on the one side as on the other; and without cycles the two sides agree. -/
theorem closures_and_check_tell_cycles (g : WaitGraph α) :
    (∀ x, Collects g.Edge x (g.allDependantsOf x)) ∧
    (∀ x, Collects (Function.swap g.Edge) x (g.allDependenciesOf x)) ∧
    List.TFAE [
      g.checkAcyclic = .ok (),
      g.Acyclic,
      (∀ x, ∃ dependants, g.allDependantsOf x = .ok dependants),
      (∀ x, ∃ dependencies, g.allDependenciesOf x = .ok dependencies),
      (∀ x y, ∃ dependants dependencies, g.allDependantsOf x = .ok dependants ∧
        g.allDependenciesOf y = .ok dependencies ∧ (y ∈ dependants ↔ x ∈ dependencies))] := by
  refine ⟨g.collects_allDependantsOf, g.collects_allDependenciesOf, ?_⟩
  tfae_have 1 ↔ 2 := checkAcyclic_eq_ok_iff
  tfae_have 3 ↔ 2 := Collects.all_ok_iff g.collects_allDependantsOf
  tfae_have 4 ↔ 2 := (Collects.all_ok_iff g.collects_allDependenciesOf).trans
    (forall_congr' fun _ => not_congr Relation.transGen_swap)
  tfae_have 2 → 5 := exists_closures
  tfae_have 5 → 3 := fun closures x => by
    obtain ⟨dependants, _, ok, _⟩ := closures x x
    exact ⟨dependants, ok⟩
  tfae_finish

end WaitGraph

end AnalysisScheduler
