import AnalysisScheduler.Graph.Adjacency

/-!
# Who waits on whom

A wait graph has an edge from a dependency to each of its dependants. It is kept from both sides,
so both directions have an order of their own: `unlocks` lists the dependants of a dependency,
`awaits` the dependencies of a dependant. The two always hold the same edges (`agree`).

Resolving a node removes every edge that touches it; `freedBy` are the dependants for which the
node was the last dependency.
-/

namespace AnalysisScheduler

/-- Edges from dependencies to dependants, seen from both ends. -/
structure WaitGraph (α : Type u) [DecidableEq α] where
  unlocks : Adjacency α
  awaits : Adjacency α
  agree : ∀ a b, b ∈ unlocks.targets a ↔ a ∈ awaits.targets b

namespace WaitGraph

variable {α : Type u} [DecidableEq α]

/-- Nobody waits. -/
def empty : WaitGraph α where
  unlocks := .empty
  awaits := .empty
  agree _ _ := ⟨nofun, nofun⟩

instance : Inhabited (WaitGraph α) := ⟨empty⟩

/-- Lets `dependant` wait on `dependency`. -/
def add (g : WaitGraph α) (dependency dependant : α) : WaitGraph α where
  unlocks := g.unlocks.link dependency dependant
  awaits := g.awaits.link dependant dependency
  agree a b := by
    rw [Adjacency.mem_targets_link, Adjacency.mem_targets_link, g.agree a b, and_comm]

/-- Removes every edge that touches `node`, whichever end it is. -/
def resolve (g : WaitGraph α) (node : α) : WaitGraph α where
  unlocks := g.unlocks.isolate node
  awaits := g.awaits.isolate node
  agree a b := by
    rw [Adjacency.mem_targets_isolate, Adjacency.mem_targets_isolate, g.agree a b]
    exact and_congr_right fun _ => and_comm

/-- The nodes that wait on `node` itself, in the order in which they came to wait. -/
def dependantsOf (g : WaitGraph α) (node : α) : List α := g.unlocks.targets node

/-- The nodes that `node` itself waits on, in the order in which it came to wait on them. -/
def dependenciesOf (g : WaitGraph α) (node : α) : List α := g.awaits.targets node

/-- The dependants that wait on `node` and on nothing else: resolving it sets them free. -/
def freedBy (g : WaitGraph α) (node : α) : List α :=
  (g.dependantsOf node).filter fun x => x ≠ node ∧ g.dependenciesOf x = [node]

/-- The nodes that somebody waits on. -/
def dependencies (g : WaitGraph α) : List α := g.unlocks.sources

/-- The nodes that wait on something. -/
def dependants (g : WaitGraph α) : List α := g.awaits.sources

/-- Whether `node` waits on something. -/
def isWaiting (g : WaitGraph α) (node : α) : Bool := g.awaits.buckets.contains node

/-- Every edge once, as dependency and dependant, dependency by dependency. -/
def edges (g : WaitGraph α) : List (α × α) := g.unlocks.edges

/-- The number of edges. -/
def size (g : WaitGraph α) : Nat := g.unlocks.size

/-- Whether nobody waits. -/
def isResolved (g : WaitGraph α) : Bool := g.unlocks.isEmpty

theorem mem_dependenciesOf_iff {g : WaitGraph α} {a b : α} :
    a ∈ g.dependenciesOf b ↔ b ∈ g.dependantsOf a := (g.agree a b).symm

theorem mem_dependantsOf_add {g : WaitGraph α} {a b x y : α} :
    y ∈ (g.add a b).dependantsOf x ↔ y ∈ g.dependantsOf x ∨ (x = a ∧ y = b) :=
  Adjacency.mem_targets_link

theorem mem_dependantsOf_resolve {g : WaitGraph α} {d x y : α} :
    y ∈ (g.resolve d).dependantsOf x ↔ y ∈ g.dependantsOf x ∧ x ≠ d ∧ y ≠ d :=
  Adjacency.mem_targets_isolate

/-- Each node that is set free takes an edge of its own out of the graph. -/
theorem size_resolve_add_le (g : WaitGraph α) (node : α) :
    (g.resolve node).size + (g.freedBy node).length ≤ g.size :=
  Nat.le_trans (Nat.add_le_add_left (List.length_filter_le _ _) _)
    (g.unlocks.size_isolate_add_le node)

example : ((empty.add 1 2).add 3 2).freedBy 1 = [] := by decide
example : (((empty.add 1 2).add 3 2).resolve 1).freedBy 3 = [2] := by decide
example : ((empty.add 1 1).add 1 2).freedBy 1 = [2] := by decide

end WaitGraph

end AnalysisScheduler
