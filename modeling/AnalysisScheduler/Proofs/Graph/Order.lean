import AnalysisScheduler.Proofs.Collection.Distinct
import AnalysisScheduler.Proofs.Graph.Closure

/-!
# In which order edges are listed

The dependants and the dependencies of a node as lists: a new edge comes last on both sides
(`dependantsOf_add`), and resolving nodes takes them out of the lists without changing the order of
the others (`dependantsOf_foldl_resolve`).
-/

namespace AnalysisScheduler

theorem Adjacency.targets_foldl_isolate {α : Type u} [DecidableEq α] (g : Adjacency α)
    (ns : List α) (x : α) :
    (ns.foldl isolate g).targets x = if x ∈ ns then [] else (g.targets x).filter (· ∉ ns) := by
  induction ns generalizing g with
  | nil => simp
  | cons n ns ih =>
    have both : ((g.targets x).filter (· ≠ n)).filter (· ∉ ns) =
        (g.targets x).filter (· ∉ n :: ns) := by
      rw [List.filter_filter]
      refine List.filter_congr fun y _ => ?_
      rw [Bool.eq_iff_iff]
      simp [and_comm]
    rw [List.foldl_cons, ih, targets_isolate, ← both]
    by_cases same : x = n <;> simp [same]

namespace WaitGraph

variable {α : Type u} [DecidableEq α]

theorem dependantsOf_add (g : WaitGraph α) (a b x : α) :
    (g.add a b).dependantsOf x =
      if x = a then appendNew (g.dependantsOf x) b else g.dependantsOf x := by
  refine (g.unlocks.targets_link a b x).trans ?_
  split
  · rename_i same
    rw [same]
    rfl
  · rfl

theorem dependenciesOf_add (g : WaitGraph α) (a b x : α) :
    (g.add a b).dependenciesOf x =
      if x = b then appendNew (g.dependenciesOf x) a else g.dependenciesOf x := by
  refine (g.awaits.targets_link b a x).trans ?_
  split
  · rename_i same
    rw [same]
    rfl
  · rfl

theorem dependantsOf_foldl_resolve (g : WaitGraph α) (ns : List α) (x : α) :
    (ns.foldl resolve g).dependantsOf x =
      if x ∈ ns then [] else (g.dependantsOf x).filter (· ∉ ns) := by
  have side : (ns.foldl resolve g).unlocks = ns.foldl Adjacency.isolate g.unlocks := by
    induction ns generalizing g with
    | nil => rfl
    | cons n ns ih => exact ih (g.resolve n)
  rw [dependantsOf, side, Adjacency.targets_foldl_isolate]
  rfl

theorem dependenciesOf_foldl_resolve (g : WaitGraph α) (ns : List α) (x : α) :
    (ns.foldl resolve g).dependenciesOf x =
      if x ∈ ns then [] else (g.dependenciesOf x).filter (· ∉ ns) := by
  have side : (ns.foldl resolve g).awaits = ns.foldl Adjacency.isolate g.awaits := by
    induction ns generalizing g with
    | nil => rfl
    | cons n ns ih => exact ih (g.resolve n)
  rw [dependenciesOf, side, Adjacency.targets_foldl_isolate]
  rfl

end WaitGraph

end AnalysisScheduler
