import AnalysisScheduler.Collection.OrderedMap

/-!
# Depth-first walks

A walk goes through a finite table of successors from a list of start nodes. It enters a node once,
and then follows each of the node's edges in turn, entering the target before it follows the next
edge. Arriving at a node that is still on the path ends the walk with the cycle that was found.

What a walk did is its `Trail`: the steps in order, and the cycle if there was one. A caller that
has work to do at a step does it along the trail; `Trail.entered` and `Trail.followed` are the two
kinds of step by themselves, and `Trail.upTo` cuts a trail at the first node that cannot be
entered.

The walk is a recursion on a list of errands. `Walk.cost` bounds what is left to do: a node that is
entered pays for the errands to its successors.
-/

namespace AnalysisScheduler

/-- One step of a walk. -/
inductive WalkStep (α : Type u) where
  /-- A node is met for the first time and its successors are looked up. -/
  | enter (node : α)
  /-- An edge is followed to its target. -/
  | follow (source target : α)
deriving DecidableEq, Repr

/-- What a walk did. A cycle is listed from the node that was met again back to that node. -/
structure Trail (α : Type u) where
  steps : List (WalkStep α)
  cycle : Option (List α)
deriving DecidableEq, Repr

/-- What can end a walk before all is visited. -/
inductive Obstacle (α : Type u) (ε : Type v) where
  /-- A node could not be entered. -/
  | failure (error : ε)
  | cycle (nodes : List α)
deriving DecidableEq, Repr

namespace Trail

variable {α : Type u}

/-- A trail with steps in front. -/
def after (t : Trail α) (steps : List (WalkStep α)) : Trail α :=
  { t with steps := steps ++ t.steps }

/-- The nodes in the order in which they were entered. -/
def entered (t : Trail α) : List α :=
  t.steps.filterMap fun
    | .enter n => some n
    | .follow .. => none

/-- The edges in the order in which they were followed. -/
def followed (t : Trail α) : List (α × α) :=
  t.steps.filterMap fun
    | .enter _ => none
    | .follow a b => some (a, b)

/-- The steps up to the first node whose look-up fails, that step included, and the failure. -/
def cutAt {ε : Type v} (failure : α → Option ε) : List (WalkStep α) → List (WalkStep α) × Option ε
  | [] => ([], none)
  | .enter n :: rest =>
    match failure n with
    | some e => ([.enter n], some e)
    | none => let (steps, e) := cutAt failure rest; (.enter n :: steps, e)
  | .follow a b :: rest => let (steps, e) := cutAt failure rest; (.follow a b :: steps, e)

/-- What is left of a trail when look-ups can fail: its steps, and what ended it if anything did. A
failure comes before a cycle, since a cycle is always the end of its trail. -/
def upTo {ε : Type v} (t : Trail α) (failure : α → Option ε) :
    List (WalkStep α) × Option (Obstacle α ε) :=
  match cutAt failure t.steps with
  | (steps, some e) => (steps, some (.failure e))
  | (steps, none) => (steps, t.cycle.map .cycle)

end Trail

namespace Walk

variable {α : Type u} [DecidableEq α]

/-- A table of successors; a node that it does not list has none. -/
abbrev Successors (α : Type u) := OrderedMap α (List α)

def successorsOf (table : Successors α) (n : α) : List α := (table.get? n).getD []

/-- What a walk still has to do. -/
inductive Errand (α : Type u) where
  /-- Go to a node, along an edge from `via` or as a start. -/
  | visit (via : Option α) (node : α)
  /-- Step back from the node at the end of the path. -/
  | leave

/-- The errands of a node that has just been entered: its edges in order, then the way back. -/
def errandsFrom (table : Successors α) (n : α) : List (Errand α) :=
  (successorsOf table n).map (.visit (some n)) ++ [.leave]

/-- What errands cost themselves: two for a visit, one for a step back. -/
def errandCost : List (Errand α) → Nat
  | [] => 0
  | .visit .. :: rest => errandCost rest + 2
  | .leave :: rest => errandCost rest + 1

theorem errandCost_errandsFrom_append (table : Successors α) (n : α) (rest : List (Errand α)) :
    errandCost (errandsFrom table n ++ rest) =
      2 * (successorsOf table n).length + 1 + errandCost rest := by
  unfold errandsFrom
  generalize successorsOf table n = ns
  induction ns with
  | nil => exact Nat.add_comm _ _
  | cons m ns ih =>
    simp only [List.map_cons, List.cons_append, errandCost, ih, List.length_cons]
    omega

/-- What the nodes that are not yet visited can still cost. -/
def unvisitedCost (table : Successors α) (visited : List α) : Nat :=
  2 * (table.entries.flatMap fun e => if e.1 ∈ visited then [] else e.2).length

/-- A bound on the steps that are left. -/
def cost (table : Successors α) (visited : List α) (errands : List (Errand α)) : Nat :=
  unvisitedCost table visited + errandCost errands

theorem unvisitedCost_cons_add_le (table : Successors α) {visited : List α} {n : α}
    (h : n ∉ visited) :
    unvisitedCost table (n :: visited) + 2 * (successorsOf table n).length ≤
      unvisitedCost table visited := by
  unfold unvisitedCost successorsOf OrderedMap.get?
  generalize table.entries = es
  induction es with
  | nil => simp
  | cons e es ih =>
    obtain ⟨a, bs⟩ := e
    rw [OrderedMap.lookup_cons_eq]
    simp only [List.flatMap_cons, List.length_append, List.mem_cons]
    simp only [List.mem_cons] at ih
    by_cases hn : n = a
    · subst hn
      simp only [true_or, if_true, h, if_false, Option.getD_some, List.length_nil]
      omega
    · have hn' : ¬ a = n := fun e => hn e.symm
      simp only [hn, hn', if_false, false_or]
      omega

/-- The nodes from where `n` stands on the path (its end first) up to the end, and `n` again. -/
def cycleAt (path : List α) (n : α) : List α :=
  n :: ((path.takeWhile (· ≠ n)).reverse ++ [n])

/-- Runs the errands. `path` holds the nodes that were entered and not yet left, the last first. -/
def run (table : Successors α) (visited path : List α) : List (Errand α) → Trail α
  | [] => ⟨[], none⟩
  | .leave :: rest => run table visited path.tail rest
  | .visit via n :: rest =>
    let edge := via.toList.map (WalkStep.follow · n)
    if n ∈ path then
      ⟨edge, some (cycleAt path n)⟩
    else if n ∈ visited then
      (run table visited path rest).after edge
    else
      (run table (n :: visited) (n :: path) (errandsFrom table n ++ rest)).after
        (edge ++ [.enter n])
termination_by errands => cost table visited errands
decreasing_by
  · simp only [cost, errandCost]
    omega
  · simp only [cost, errandCost]
    omega
  · have paid := unvisitedCost_cons_add_le table ‹n ∉ visited›
    simp only [cost, errandCost, errandCost_errandsFrom_append]
    omega

end Walk

/-- The depth-first walk through `table` from the nodes of `starts`, one after another. -/
def walk {α : Type u} [DecidableEq α] (table : Walk.Successors α) (starts : List α) : Trail α :=
  Walk.run table [] [] (starts.map (.visit none))

example : walk (.ofList [(1, [2, 3]), (2, [4]), (3, [4])]) [1, 2] =
    ⟨[.enter 1, .follow 1 2, .enter 2, .follow 2 4, .enter 4, .follow 1 3, .enter 3, .follow 3 4],
      none⟩ := by decide +kernel
example : (walk (.ofList [(0, [1]), (1, [2]), (2, [1])]) [0]).cycle = some [1, 2, 1] := by
  decide +kernel

end AnalysisScheduler
