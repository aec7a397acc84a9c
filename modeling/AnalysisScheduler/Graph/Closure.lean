import AnalysisScheduler.Graph.Description
import AnalysisScheduler.Graph.Walk

/-!
# Transitive dependants and dependencies

Everything that a node unlocks or awaits, directly or through others. A walk that meets a cycle has
no such set to offer and returns the cycle instead.
-/

namespace AnalysisScheduler

namespace WaitGraph

variable {α : Type u} [DecidableEq α]

/-- The targets of every edge that a walk from `node` follows, each once. -/
def closure (g : Adjacency α) (node : α) : Except (Circular α) (List α) :=
  let trail := walk g.buckets [node]
  match trail.cycle with
  | some cycle => .error ⟨cycle⟩
  | none => .ok (trail.followed.map Prod.snd).eraseDups

/-- Every node that waits on `node`, directly or through others. -/
def allDependantsOf (g : WaitGraph α) (node : α) : Except (Circular α) (List α) :=
  closure g.unlocks node

/-- Every node that `node` waits on, directly or through others. -/
def allDependenciesOf (g : WaitGraph α) (node : α) : Except (Circular α) (List α) :=
  closure g.awaits node

/-- Looks for a cycle from every dependency in turn. -/
def checkAcyclic (g : WaitGraph α) : Except (Circular α) Unit :=
  match (walk g.unlocks.buckets g.dependencies).cycle with
  | some cycle => .error ⟨cycle⟩
  | none => .ok ()

end WaitGraph

end AnalysisScheduler
