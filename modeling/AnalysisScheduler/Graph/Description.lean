import AnalysisScheduler.Graph.WaitGraph
import AnalysisScheduler.Text.Description

/-!
# Cycles and graphs in words

The wording of a cycle, from a node back to the same node, and the description of a wait graph from
both of its sides. Nodes are told by their labels.
-/

namespace AnalysisScheduler

/-- A directed cycle, listed from one of its nodes back to the same node. -/
structure Circular (α : Type u) where
  cycle : List α
deriving DecidableEq, Repr

/-- The wording of a cycle. -/
def Circular.message {α : Type u} [Label α] (c : Circular α) : String :=
  "circular dependency detected: " ++ " -> ".intercalate (c.cycle.map label)

/-- The description of the buckets of a graph. -/
def Adjacency.inspect {α : Type u} [Label α] (g : Adjacency α) : String :=
  Description.map
    (g.buckets.entries.map fun e => (label e.1, Description.braces (e.2.map label)))

/-- The description of a wait graph, from both sides. -/
def WaitGraph.inspect {α : Type u} [DecidableEq α] [Label α] (g : WaitGraph α) : String :=
  Description.record "DependencyTracker"
    [("forward", g.unlocks.inspect), ("reverse", g.awaits.inspect)]

end AnalysisScheduler
