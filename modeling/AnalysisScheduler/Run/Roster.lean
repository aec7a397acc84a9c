import AnalysisScheduler.Run.Notice

/-!
# Rosters

The bears of a run and who waits on whom. The supplied bears are put into groups by their sites, one
bear for each kind; the dependencies that a group lacks are made, at the same site, and shared by
all who need them. Groups never share bears.

A group is completed along a depth-first walk through the kinds, from those that were supplied: a
kind that is entered gets the bears it depends on, and each dependency that is followed becomes an
edge. The walk fails on the first kind that cannot be made, or else on a cycle of kinds.
-/

namespace AnalysisScheduler

/-- The bears of one site by their kinds: those that were supplied, then those that were made. -/
abbrev Group (w : Workspace) := OrderedMap (KindId w) (Bear w)

/-- The bears of a run in order, group by group, and the graph of their dependencies. -/
structure Roster (w : Workspace) where
  bears : List (Bear w)
  graph : WaitGraph (Bear w)

namespace Roster

variable {w : Workspace}

def empty : Roster w := ⟨[], .empty⟩

/-- The bears that wait on nobody. -/
def entryPoints (r : Roster w) : List (Bear w) := r.bears.filter fun b => !r.graph.isWaiting b

/-! ## Supplied bears -/

/-- Puts a bear into its group, where the first bear of a kind is kept. -/
def enlist (groups : OrderedMap (Site w) (Group w)) (b : Bear w) :
    OrderedMap (Site w) (Group w) × List (Notice w) :=
  let group := (groups.get? b.site).getD .empty
  match group.get? b.kindId with
  | some kept => (groups, if kept = b then [] else [.collapsed b kept])
  | none => (groups.insert b.site (group.insert b.kindId b), [])

/-- The groups of a list of bears, in the order in which their sites first occur. -/
def enlistAll (groups : OrderedMap (Site w) (Group w)) :
    List (Bear w) → OrderedMap (Site w) (Group w) × List (Notice w)
  | [] => (groups, [])
  | b :: rest =>
    let (groups, notices) := enlist groups b
    let (groups, more) := enlistAll groups rest
    (groups, notices ++ more)

/-! ## Missing dependencies -/

/-- A group that is being completed, the number for the next new bear, and what has been said. -/
structure Draft (w : Workspace) where
  group : Group w
  nextId : Nat
  notices : List (Notice w)

/-- Makes the bears of those kinds that the group lacks, for `dependant`. -/
def Draft.mint (d : Draft w) (dependant : Bear w) :
    List (KindId w) → Draft w × Option SettingError
  | [] => (d, none)
  | k :: rest =>
    if d.group.contains k then d.mint dependant rest
    else match Bear.make d.nextId k dependant.site with
      | .error e => (d, some e)
      | .ok made =>
        let d : Draft w :=
          ⟨d.group.insert k made, d.nextId + 1, d.notices ++ [.minted made dependant]⟩
        d.mint dependant rest

/-- Makes what the bears of these kinds depend on, one kind after another. -/
def Draft.mintAll (d : Draft w) : List (KindId w) → Draft w × Option SettingError
  | [] => (d, none)
  | k :: rest =>
    match d.group.get? k with
    | none => d.mintAll rest
    | some dependant =>
      match d.mint dependant (w.dependenciesOf k) with
      | (d, some e) => (d, some e)
      | (d, none) => d.mintAll rest

/-- The kinds and what they depend on. -/
def kindGraph (w : Workspace) : Walk.Successors (KindId w) :=
  .tabulate (List.finRange w.kindCount) (List.nodup_finRange _) w.dependenciesOf

/-- Lets the bear of the first kind wait on the bear of the second. -/
def connect (group : Group w) (graph : WaitGraph (Bear w)) (edge : KindId w × KindId w) :
    WaitGraph (Bear w) :=
  match group.get? edge.1, group.get? edge.2 with
  | some dependant, some dependency => graph.add dependency dependant
  | _, _ => graph

/-- Completes one group and adds it to the roster. -/
def addGroup (r : Roster w) (nextId : Nat) (group : Group w) :
    Draft w × Except (SetupError (Bear w)) (Roster w) :=
  let trail := walk (kindGraph w) group.keys
  match Draft.mintAll ⟨group, nextId, []⟩ trail.entered, trail.cycle with
  | (d, some e), _ => (d, .error (.setting e))
  | (d, none), some cycle => (d, .error (.circular ⟨cycle.filterMap d.group.get?⟩))
  | (d, none), none =>
    (d, .ok ⟨r.bears ++ d.group.values, trail.followed.foldl (connect d.group) r.graph⟩)

/-- Completes the groups one after another, up to the first that fails. -/
def addGroups (r : Roster w) (nextId : Nat) :
    List (Group w) → List (Notice w) × Except (SetupError (Bear w)) (Roster w)
  | [] => ([], .ok r)
  | group :: rest =>
    match r.addGroup nextId group with
    | (d, .error e) => (d.notices, .error e)
    | (d, .ok r) =>
      let (notices, result) := addGroups r d.nextId rest
      (d.notices ++ notices, result)

/-- The roster of the supplied bears, and what there is to say about it. The bears that have to be
made are numbered from `nextId`. -/
def assemble (nextId : Nat) (supplied : List (Bear w)) :
    List (Notice w) × Except (SetupError (Bear w)) (Roster w) :=
  let (groups, notices) := enlistAll .empty supplied
  let (more, result) := addGroups .empty nextId groups.values
  (notices ++ more, result)

end Roster

end AnalysisScheduler
