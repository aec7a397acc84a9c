import AnalysisScheduler.Proofs.Graph.Walk
import Mathlib.Data.List.Flatten

/-!
# Plain depth-first search

A depth-first search that keeps no path and looks for no cycle: all that it remembers is which
nodes it has seen (`Walk.search`). It enters a node that is new, goes through the successors of the
node in order, and only then turns to the next node of its list.

What a search has seen in the end is what it knew before and what it entered (`seen_eq`). It follows
each edge of a node that it enters once, in order (`filter_leaves_entered`), and between an edge and
the next one of the same node it enters exactly those nodes that the edge leads to and that were not
met before (`exists_turn`).
-/

namespace AnalysisScheduler

namespace WalkStep

variable {α : Type u}

/-- Whether a step follows an edge of `n`. -/
def leaves [DecidableEq α] (n : α) : WalkStep α → Bool
  | enter _ => false
  | follow source _ => source = n

end WalkStep

namespace Walk

variable {α : Type u} [DecidableEq α]

/-- What a search did that knew some nodes before. -/
structure Sweep (known : List α) where
  steps : List (WalkStep α)
  /-- The nodes that have been seen in the end, the last one first. -/
  seen : List α
  grows : known ⊆ seen

/-- The step along an edge from `via` to `n`; nothing leads to a start. -/
def arrival (via : Option α) (n : α) : List (WalkStep α) := via.toList.map (WalkStep.follow · n)

theorem unvisitedCost_anti (table : Successors α) {visited visited' : List α}
    (more : visited ⊆ visited') : unvisitedCost table visited' ≤ unvisitedCost table visited := by
  have rest : ((table.entries.flatMap fun e => if e.1 ∈ visited' then [] else e.2).Sublist
      (table.entries.flatMap fun e => if e.1 ∈ visited then [] else e.2)) := by
    refine List.Sublist.flatMap_right _ fun e _ => ?_
    split
    · exact List.nil_sublist _
    · rename_i unseen
      rw [if_neg fun seen => unseen (more seen)]
  exact Nat.mul_le_mul_left 2 rest.length_le

/-- Searches from the nodes of a list, one after another, along edges from `via` if there is one. -/
def search (table : Successors α) (via : Option α) (known : List α) : List α → Sweep known
  | [] => ⟨[], known, List.Subset.refl known⟩
  | n :: ns =>
    if n ∈ known then
      let rest := search table via known ns
      ⟨arrival via n ++ rest.steps, rest.seen, rest.grows⟩
    else
      let inner := search table (some n) (n :: known) (successorsOf table n)
      let rest := search table via inner.seen ns
      ⟨arrival via n ++ .enter n :: (inner.steps ++ rest.steps), rest.seen,
        fun _ old => rest.grows (inner.grows (List.mem_cons_of_mem n old))⟩
termination_by ns => unvisitedCost table known + ns.length
decreasing_by
  · simp only [List.length_cons]
    omega
  · have paid := unvisitedCost_cons_add_le table ‹n ∉ known›
    simp only [List.length_cons]
    omega
  · have paid := unvisitedCost_cons_add_le table ‹n ∉ known›
    refine Nat.lt_of_le_of_lt (Nat.add_le_add_right (unvisitedCost_anti table (Sweep.grows _)) _) ?_
    simp only [List.length_cons]
    omega

/-- The rules of a search: `Searches table via known ns steps seen` if a search from `ns`, along
edges from `via`, that knows the nodes of `known` takes these steps and has seen the nodes of `seen`
in the end. -/
inductive Searches (table : Successors α) :
    Option α → List α → List α → List (WalkStep α) → List α → Prop where
  | done {via : Option α} {known : List α} : Searches table via known [] [] known
  | old {via : Option α} {known ns seen : List α} {n : α} {steps : List (WalkStep α)} :
      n ∈ known → Searches table via known ns steps seen →
      Searches table via known (n :: ns) (arrival via n ++ steps) seen
  | new {via : Option α} {known between ns seen : List α} {n : α}
      {inner steps : List (WalkStep α)} :
      n ∉ known → Searches table (some n) (n :: known) (successorsOf table n) inner between →
      Searches table via between ns steps seen →
      Searches table via known (n :: ns) (arrival via n ++ .enter n :: (inner ++ steps)) seen

theorem searches_search (table : Successors α) (via : Option α) (known ns : List α) :
    Searches table via known ns (search table via known ns).steps
      (search table via known ns).seen := by
  fun_induction search table via known ns with
  | case1 => exact .done
  | case2 via known n ns old rest tail => exact .old old tail
  | case3 via known n ns new inner rest head tail => exact .new new head tail

/-- The search goes on where a walk ends: it does not notice that it comes back to `0`. -/
example : (search (.ofList [(0, [1]), (1, [0, 2])]) none [] [0]).steps =
    [.enter 0, .follow 0 1, .enter 1, .follow 1 0, .follow 1 2, .enter 2] := by decide +kernel

section Arrival

variable {via : Option α} {n m a b : α} {inner steps : List (WalkStep α)}

omit [DecidableEq α] in
theorem enter_not_mem_arrival : .enter m ∉ arrival via n := by
  cases via <;> simp [arrival]

omit [DecidableEq α] in
theorem enter_mem_arrival_append : .enter m ∈ arrival via n ++ steps ↔ .enter m ∈ steps := by
  rw [List.mem_append, or_iff_right enter_not_mem_arrival]

omit [DecidableEq α] in
theorem enter_mem_entry_append :
    .enter m ∈ arrival via n ++ .enter n :: (inner ++ steps) ↔
      m = n ∨ .enter m ∈ inner ∨ .enter m ∈ steps := by
  rw [enter_mem_arrival_append, List.mem_cons, List.mem_append, WalkStep.enter.injEq]

omit [DecidableEq α] in
theorem follow_mem_arrival : .follow a b ∈ arrival via n ↔ via = some a ∧ b = n := by
  cases via <;> simp [arrival, eq_comm]

omit [DecidableEq α] in
theorem filterMap_entered?_arrival :
    (arrival via n).filterMap WalkStep.entered? = [] := by
  cases via <;> rfl

theorem filter_leaves_arrival : (arrival via n).filter (·.leaves a) =
    if via = some a then [.follow a n] else [] := by
  cases via with
  | none => rfl
  | some m => by_cases same : m = a <;> simp [arrival, WalkStep.leaves, same]

theorem filter_leaves_entry (away : via ≠ some a) :
    (arrival via n ++ [WalkStep.enter n]).filter (·.leaves a) = [] := by
  rw [List.filter_append, filter_leaves_arrival, if_neg away]
  rfl

end Arrival

namespace Searches

variable {table : Successors α} {via : Option α} {known ns seen : List α}
  {steps : List (WalkStep α)} {a b m : α}

/-! ## What is seen -/

theorem seen_eq (searches : Searches table via known ns steps seen) :
    seen = (steps.filterMap WalkStep.entered?).reverse ++ known := by
  induction searches with
  | done => rfl
  | old _ _ tail => rw [List.filterMap_append, filterMap_entered?_arrival, tail]; rfl
  | new _ _ _ head tail =>
    rw [List.filterMap_append, filterMap_entered?_arrival, tail, head]
    simp [WalkStep.entered?]

theorem mem_seen_iff (searches : Searches table via known ns steps seen) :
    m ∈ seen ↔ m ∈ known ∨ .enter m ∈ steps := by
  rw [searches.seen_eq, List.mem_append, List.mem_reverse, WalkStep.mem_filterMap_entered?, or_comm]

theorem known_subset (searches : Searches table via known ns steps seen) : known ⊆ seen :=
  fun _ old => searches.mem_seen_iff.2 (.inl old)

theorem nodup_seen (searches : Searches table via known ns steps seen) (nodup : known.Nodup) :
    seen.Nodup := by
  induction searches with
  | done => exact nodup
  | old _ _ tail => exact tail nodup
  | new new _ _ head tail => exact tail (head (List.nodup_cons.2 ⟨new, nodup⟩))

/-- A node that is known is not entered again. -/
theorem enter_not_mem (searches : Searches table via known ns steps seen) (old : m ∈ known) :
    .enter m ∉ steps := by
  induction searches with
  | done => exact List.not_mem_nil
  | old _ _ tail =>
    rw [enter_mem_arrival_append]
    exact tail old
  | new new inner _ head tail =>
    rw [enter_mem_entry_append]
    rintro (rfl | mem | mem)
    · exact new old
    · exact head (List.mem_cons_of_mem _ old) mem
    · exact tail (inner.known_subset (List.mem_cons_of_mem _ old)) mem

/-- Every node of the list is seen. -/
theorem subset_seen (searches : Searches table via known ns steps seen) : ns ⊆ seen := by
  induction searches with
  | done => exact List.nil_subset _
  | old old rest tail => exact List.cons_subset.2 ⟨rest.known_subset old, tail⟩
  | new _ inner rest _ tail =>
    exact List.cons_subset.2 ⟨rest.known_subset (inner.known_subset List.mem_cons_self), tail⟩

/-- The successors of a node that is entered are seen. -/
theorem mem_seen_of_leads (searches : Searches table via known ns steps seen)
    (entered : .enter a ∈ steps) (leads : Leads table a b) : b ∈ seen := by
  induction searches with
  | done => exact absurd entered List.not_mem_nil
  | old _ _ tail =>
    exact tail (enter_mem_arrival_append.1 entered)
  | new _ inner rest head tail =>
    rcases enter_mem_entry_append.1 entered with rfl | mem | mem
    · exact rest.known_subset (inner.subset_seen leads)
    · exact rest.known_subset (head mem)
    · exact tail mem

/-- What is entered can be reached from the list. -/
theorem reachable (searches : Searches table via known ns steps seen) (entered : .enter m ∈ steps) :
    ∃ s ∈ ns, Relation.ReflTransGen (Leads table) s m := by
  induction searches with
  | done => exact absurd entered List.not_mem_nil
  | old _ _ tail =>
    obtain ⟨s, mem, reach⟩ := tail (enter_mem_arrival_append.1 entered)
    exact ⟨s, List.mem_cons_of_mem _ mem, reach⟩
  | @new _ _ _ _ _ n _ _ _ _ _ head tail =>
    rcases enter_mem_entry_append.1 entered with rfl | mem | mem
    · exact ⟨m, List.mem_cons_self, .refl⟩
    · obtain ⟨s, leads, reach⟩ := head mem
      exact ⟨n, List.mem_cons_self, .head leads reach⟩
    · obtain ⟨s, mem, reach⟩ := tail mem
      exact ⟨s, List.mem_cons_of_mem _ mem, reach⟩

/-! ## What is followed -/

/-- An edge that is followed is an edge of a node that is entered, or it leads from `via` to a node
of the list. -/
theorem of_follow (searches : Searches table via known ns steps seen)
    (followed : .follow a b ∈ steps) :
    (via = some a ∧ b ∈ ns) ∨ (.enter a ∈ steps ∧ Leads table a b) := by
  induction searches with
  | done => exact absurd followed List.not_mem_nil
  | old _ _ tail =>
    rw [List.mem_append, follow_mem_arrival] at followed
    rcases followed with ⟨here, rfl⟩ | mem
    · exact .inl ⟨here, List.mem_cons_self⟩
    · exact (tail mem).imp (And.imp_right (List.mem_cons_of_mem _))
        (And.imp_left (List.mem_append_right _))
  | new _ _ _ head tail =>
    simp only [List.mem_append, List.mem_cons, reduceCtorEq, false_or, follow_mem_arrival]
      at followed ⊢
    rcases followed with ⟨here, rfl⟩ | mem | mem
    · exact .inl ⟨here, .inl rfl⟩
    · rcases head mem with ⟨same, leads⟩ | ⟨entered, leads⟩
      · cases same
        exact .inr ⟨.inr (.inl rfl), leads⟩
      · exact .inr ⟨.inr (.inr (.inl entered)), leads⟩
    · exact (tail mem).imp (And.imp_right .inr)
        (And.imp_left fun entered => .inr (.inr (.inr entered)))

/-- From a node that is known, the search follows the edges that it was sent along, in order. -/
theorem filter_leaves_known (searches : Searches table via known ns steps seen) (old : a ∈ known) :
    steps.filter (·.leaves a) = if via = some a then ns.map (.follow a) else [] := by
  induction searches with
  | done => simp
  | old _ _ tail =>
    rw [List.filter_append, filter_leaves_arrival, tail old]
    split <;> rfl
  | @new via _ _ _ _ n inner steps new search _ head tail =>
    have other : some n ≠ some a := fun same => new (Option.some.inj same ▸ old)
    have entry : (WalkStep.enter n :: (inner ++ steps)).filter (·.leaves a) =
        (inner ++ steps).filter (·.leaves a) := rfl
    rw [List.filter_append, filter_leaves_arrival, entry, List.filter_append,
      head (List.mem_cons_of_mem _ old), if_neg other,
      tail (search.known_subset (List.mem_cons_of_mem _ old))]
    split <;> rfl

/-- From a node that is not seen, and along which the search was not sent, no edge is followed. -/
theorem filter_leaves_unseen (searches : Searches table via known ns steps seen) (new : a ∉ seen)
    (away : via ≠ some a) : steps.filter (·.leaves a) = [] := by
  rw [List.filter_eq_nil_iff]
  rintro (n | ⟨c, b⟩) mem
  · exact Bool.false_ne_true
  · intro leaves
    have same : c = a := of_decide_eq_true leaves
    subst same
    rcases searches.of_follow mem with ⟨here, _⟩ | ⟨entered, _⟩
    · exact away here
    · exact new (searches.mem_seen_iff.2 (.inr entered))

/-- From a node that is entered, each edge is followed once, in order. -/
theorem filter_leaves_entered (searches : Searches table via known ns steps seen)
    (sent : ∀ v, via = some v → v ∈ known) (entered : .enter a ∈ steps) :
    steps.filter (·.leaves a) = (successorsOf table a).map (.follow a) := by
  have away : via ≠ some a := fun same => searches.enter_not_mem (sent a same) entered
  induction searches with
  | done => exact absurd entered List.not_mem_nil
  | old _ _ tail =>
    rw [List.filter_append, filter_leaves_arrival, if_neg away, List.nil_append]
    exact tail sent (enter_mem_arrival_append.1 entered) away
  | @new via known between ns seen n inner steps new search rest head tail =>
    -- The edges of `a` are followed inside of what is done for `n` or behind it, never in both.
    have parts : (arrival via n ++ .enter n :: (inner ++ steps)).filter (·.leaves a) =
        inner.filter (·.leaves a) ++ steps.filter (·.leaves a) := by
      rw [← List.singleton_append, ← List.append_assoc, List.filter_append,
        filter_leaves_entry away, List.filter_append, List.nil_append]
    have after (met : a ∈ between) : steps.filter (·.leaves a) = [] :=
      (rest.filter_leaves_known met).trans (if_neg away)
    rw [parts]
    rcases enter_mem_entry_append.1 entered with rfl | here | later
    · rw [search.filter_leaves_known List.mem_cons_self, if_pos rfl,
        after (search.known_subset List.mem_cons_self), List.append_nil]
    · have other : some n ≠ some a := fun same =>
        search.enter_not_mem (Option.some.inj same ▸ List.mem_cons_self) here
      have sent' : ∀ v, some n = some v → v ∈ n :: known := by
        rintro _ ⟨⟩
        exact List.mem_cons_self
      rw [head sent' here other, after (search.mem_seen_iff.2 (.inr here)), List.append_nil]
    · have unmet : a ∉ between := fun met => rest.enter_not_mem met later
      have other : some n ≠ some a := fun same =>
        unmet (Option.some.inj same ▸ search.known_subset List.mem_cons_self)
      rw [search.filter_leaves_unseen unmet other, List.nil_append]
      exact tail (fun v same => search.known_subset (List.mem_cons_of_mem n (sent v same))) later
        away

/-! ## One list after another -/

/-- A search from two lists is one from the first, and then one from the second. -/
theorem of_append (xs : List α) {ys : List α}
    (searches : Searches table via known (xs ++ ys) steps seen) :
    ∃ first between second, Searches table via known xs first between ∧
      Searches table via between ys second seen ∧ steps = first ++ second := by
  generalize whole : xs ++ ys = ns at searches
  induction searches generalizing xs with
  | @done via known =>
    obtain ⟨rfl, rfl⟩ := List.append_eq_nil_iff.1 whole
    exact ⟨[], known, [], .done, .done, rfl⟩
  | @old via known ns seen n steps old search tail =>
    cases xs with
    | nil =>
      subst whole
      exact ⟨[], known, _, .done, .old old search, rfl⟩
    | cons x xs =>
      cases whole
      obtain ⟨first, between, second, left, right, rfl⟩ := tail xs rfl
      exact ⟨_, between, second, .old old left, right, (List.append_assoc ..).symm⟩
  | @new via known middle ns seen n inner steps new search rest head tail =>
    cases xs with
    | nil =>
      subst whole
      exact ⟨[], known, _, .done, .new new search rest, rfl⟩
    | cons x xs =>
      cases whole
      obtain ⟨first, between, second, left, right, rfl⟩ := tail xs rfl
      exact ⟨_, between, second, .new new search left, right, by simp⟩

/-- A search along one edge follows the edge first. -/
theorem of_singleton {n s : α} (searches : Searches table (some n) known [s] steps seen) :
    ∃ inner, steps = .follow n s :: inner := by
  cases searches with
  | old => exact ⟨_, rfl⟩
  | new => exact ⟨_, rfl⟩

end Searches

/-! ## Turns -/

/-- A search is not hindered by what is still being gone through (`opened`): all that the other
known nodes lead to is known, the nodes of the list lead to none that is opened, and they lead to no
cycle. -/
structure Unhindered (table : Successors α) (opened known ns : List α) : Prop where
  saturated : ∀ y ∈ known, y ∈ opened ∨ ∀ z, Relation.ReflTransGen (Leads table) y z → z ∈ known
  apart : ∀ x ∈ ns, ∀ p ∈ opened, ¬ Relation.ReflTransGen (Leads table) x p
  acyclic : ∀ x ∈ ns, ∀ y, Relation.ReflTransGen (Leads table) x y →
    ¬ Relation.TransGen (Leads table) y y

namespace Unhindered

variable {table : Successors α} {via : Option α} {opened known ns xs ys seen inner : List α}
  {steps : List (WalkStep α)} {n s z : α}

/-- The search sees all that its list leads to. -/
theorem mem_seen (free : Unhindered table opened known ns)
    (searches : Searches table via known ns steps seen) (mem : s ∈ ns)
    (reach : Relation.ReflTransGen (Leads table) s z) : z ∈ seen := by
  induction reach with
  | refl => exact searches.subset_seen mem
  | @tail y z reach leads ih =>
    rcases searches.mem_seen_iff.1 ih with old | entered
    · rcases free.saturated y old with waits | all
      · exact absurd reach (free.apart s mem y waits)
      · exact searches.known_subset (all z (.single leads))
    · exact searches.mem_seen_of_leads entered leads

theorem sublist (free : Unhindered table opened known ys) (sub : xs ⊆ ys) :
    Unhindered table opened known xs :=
  ⟨free.saturated, fun x mem => free.apart x (sub mem), fun x mem => free.acyclic x (sub mem)⟩

/-- What was entered by the search of one list does not hinder the search of another. -/
theorem after (free : Unhindered table opened known (xs ++ ys))
    (searches : Searches table via known xs steps seen) : Unhindered table opened seen ys := by
  have later := free.sublist (List.subset_append_right xs ys)
  refine ⟨fun y mem => ?_, later.apart, later.acyclic⟩
  rcases searches.mem_seen_iff.1 mem with old | entered
  · exact (free.saturated y old).imp_right fun all z reach => searches.known_subset (all z reach)
  · obtain ⟨x, start, reach⟩ := searches.reachable entered
    have first := free.sublist (List.subset_append_left xs ys)
    exact .inr fun z on => first.mem_seen searches start (reach.trans on)

/-- A node that is entered is opened for the search of its successors. -/
theorem enter (free : Unhindered table opened known (n :: ns)) :
    Unhindered table (n :: opened) (n :: known) (successorsOf table n) where
  saturated y mem := by
    rcases List.mem_cons.1 mem with rfl | old
    · exact .inl List.mem_cons_self
    · exact (free.saturated y old).imp (List.mem_cons_of_mem n) fun all z reach =>
        List.mem_cons_of_mem n (all z reach)
  apart x leads p mem reach := by
    rcases List.mem_cons.1 mem with rfl | old
    · exact free.acyclic p List.mem_cons_self p .refl (.head' leads reach)
    · exact free.apart n List.mem_cons_self p old (.head leads reach)
  acyclic x leads y reach := free.acyclic n List.mem_cons_self y (.head leads reach)

/-- After its successors have been searched, a node is closed again. -/
theorem leave (free : Unhindered table opened known (n :: ns))
    (searches : Searches table (some n) (n :: known) (successorsOf table n) steps seen) :
    Unhindered table opened seen ns := by
  have within := free.enter
  rw [← List.append_nil (successorsOf table n)] at within
  have rest := free.sublist (List.subset_cons_self n ns)
  refine ⟨fun y mem => ?_, rest.apart, rest.acyclic⟩
  rcases (within.after searches).saturated y mem with waits | all
  · rcases List.mem_cons.1 waits with rfl | waits
    · refine .inr fun z reach => ?_
      rcases Relation.ReflTransGen.cases_head reach with rfl | ⟨x, leads, on⟩
      · exact mem
      · exact free.enter.mem_seen searches leads on
    · exact .inl waits
  · exact .inr all

end Unhindered

/-- The turn of one edge, from `n` to `s`, among the edges of `n`: the edges before it have been
followed by then, those behind it come later, and in between all that `s` leads to is entered,
unless it was met before. -/
structure IsTurn (table : Successors α) (known : List α) (steps : List (WalkStep α)) (n : α)
    (before : List α) (s : α) (after : List α) (earlier inner later : List (WalkStep α)) :
    Prop where
  split : steps = earlier ++ .follow n s :: (inner ++ later)
  entered : n ∈ known ∨ .enter n ∈ earlier
  before : earlier.filter (·.leaves n) = before.map (.follow n)
  during : inner.filter (·.leaves n) = []
  after : later.filter (·.leaves n) = after.map (.follow n)
  reached : ∀ m, .enter m ∈ inner ↔
    Relation.ReflTransGen (Leads table) s m ∧ m ∉ known ∧ .enter m ∉ earlier

/-- Steps in front and behind that follow no edge of the node do not change its turns. -/
theorem IsTurn.within {table : Successors α} {known known' before after : List α} {n s : α}
    {steps earlier inner later : List (WalkStep α)}
    (turn : IsTurn table known' steps n before s after earlier inner later)
    (front back : List (WalkStep α)) (meets : ∀ m, m ∈ known' ↔ m ∈ known ∨ .enter m ∈ front)
    (first : front.filter (·.leaves n) = []) (last : back.filter (·.leaves n) = []) :
    IsTurn table known (front ++ (steps ++ back)) n before s after (front ++ earlier) inner
      (later ++ back) where
  split := by rw [turn.split]; simp
  entered := by
    rw [List.mem_append, ← or_assoc, ← meets]
    exact turn.entered
  before := by rw [List.filter_append, first, turn.before, List.nil_append]
  during := turn.during
  after := by rw [List.filter_append, last, turn.after, List.append_nil]
  reached m := by rw [turn.reached, meets, List.mem_append, not_or, not_or, and_assoc]

namespace Searches

variable {table : Successors α} {via : Option α} {known ns seen opened before after : List α}
  {steps : List (WalkStep α)} {n s : α}

/-- Each edge of a list has its turn in the search of the list. -/
theorem exists_turn_of_via
    (searches : Searches table (some n) known ns steps seen)
    (free : Unhindered table opened known ns) (met : n ∈ known)
    (split : ns = before ++ s :: after) :
    ∃ earlier inner later, IsTurn table known steps n before s after earlier inner later := by
  subst split
  -- The list is cut before the edge and behind it; the turn is what lies between the cuts.
  obtain ⟨earlier, between, _, search, rest, rfl⟩ := searches.of_append before
  obtain ⟨_, between', later, search', rest', rfl⟩ := rest.of_append [s]
  obtain ⟨inner, rfl⟩ := search'.of_singleton
  have here : n ∈ between := search.known_subset met
  have turned := (search'.filter_leaves_known here).trans (if_pos rfl)
  have first : (WalkStep.follow n s :: inner).filter (·.leaves n) =
      .follow n s :: inner.filter (·.leaves n) := List.filter_cons_of_pos (decide_eq_true rfl)
  refine ⟨earlier, inner, later, rfl, .inl met, ?_, ?_, ?_, fun m => ?_⟩
  · exact (search.filter_leaves_known met).trans (if_pos rfl)
  · exact (List.cons.inj (first.symm.trans turned)).2
  · exact (rest'.filter_leaves_known (search'.known_subset here)).trans (if_pos rfl)
  · have enters : .enter m ∈ inner ↔ .enter m ∈ WalkStep.follow n s :: inner := by simp
    have new : m ∉ known ∧ .enter m ∉ earlier ↔ m ∉ between := by
      rw [search.mem_seen_iff, not_or]
    rw [enters, new]
    constructor
    · intro entered
      obtain ⟨x, only, reach⟩ := search'.reachable entered
      exact ⟨List.mem_singleton.1 only ▸ reach, fun old => search'.enter_not_mem old entered⟩
    · rintro ⟨reach, unmet⟩
      have seen := ((free.after search).sublist (by simp)).mem_seen search'
        (List.mem_singleton_self s) reach
      exact (search'.mem_seen_iff.1 seen).resolve_left unmet

/-- A turn inside what is done for a node is a turn of the whole search. -/
theorem exists_turn_of_inner {between : List α} {m : α}
    {inside earlier inner later : List (WalkStep α)}
    (rest : Searches table via between ns steps seen) (away : via ≠ some n) (met : n ∈ between)
    (turn : IsTurn table (m :: known) inside n before s after earlier inner later) :
    ∃ earlier inner later, IsTurn table known (arrival via m ++ .enter m :: (inside ++ steps))
      n before s after earlier inner later := by
  have meets (x : α) : x ∈ m :: known ↔ x ∈ known ∨ .enter x ∈ arrival via m ++ [.enter m] := by
    simp [enter_not_mem_arrival, or_comm]
  have whole := turn.within _ steps meets (filter_leaves_entry away)
    ((rest.filter_leaves_known met).trans (if_neg away))
  rw [List.append_assoc, List.singleton_append] at whole
  exact ⟨_, _, _, whole⟩

/-- A turn after what is done for a node is a turn of the whole search. -/
theorem exists_turn_of_rest {between : List α} {m : α}
    {inside earlier inner later : List (WalkStep α)}
    (search : Searches table (some m) (m :: known) (successorsOf table m) inside between)
    (away : via ≠ some n) (unmet : n ∉ between)
    (turn : IsTurn table between steps n before s after earlier inner later) :
    ∃ earlier inner later, IsTurn table known (arrival via m ++ .enter m :: (inside ++ steps))
      n before s after earlier inner later := by
  have other : some m ≠ some n := fun same =>
    unmet (Option.some.inj same ▸ search.known_subset List.mem_cons_self)
  have front : (arrival via m ++ [WalkStep.enter m] ++ inside).filter (·.leaves n) = [] := by
    rw [List.filter_append, filter_leaves_entry away, search.filter_leaves_unseen unmet other]
    rfl
  have meets (x : α) : x ∈ between ↔
      x ∈ known ∨ .enter x ∈ arrival via m ++ [.enter m] ++ inside := by
    rw [search.mem_seen_iff]
    simp [enter_not_mem_arrival, or_assoc, or_left_comm]
  have whole := turn.within _ [] meets front rfl
  rw [List.append_nil, List.append_assoc, List.append_assoc, List.singleton_append] at whole
  exact ⟨_, _, _, whole⟩

/-- Each edge of each node that is entered has its turn. -/
theorem exists_turn (searches : Searches table via known ns steps seen)
    (free : Unhindered table opened known ns) (sent : ∀ v, via = some v → v ∈ known)
    (entered : .enter n ∈ steps) (split : successorsOf table n = before ++ s :: after) :
    ∃ earlier inner later, IsTurn table known steps n before s after earlier inner later := by
  induction searches generalizing opened with
  | done => exact absurd entered List.not_mem_nil
  | @old via known ns seen m steps old search tail =>
    have later := enter_mem_arrival_append.1 entered
    have away : via ≠ some n := fun same => search.enter_not_mem (sent n same) later
    obtain ⟨_, _, _, turn⟩ := tail (free.sublist (List.subset_cons_self m ns)) sent later
    have whole := turn.within (arrival via m) []
      (fun _ => (or_iff_left enter_not_mem_arrival).symm)
      (filter_leaves_arrival.trans (if_neg away)) rfl
    rw [List.append_nil] at whole
    exact ⟨_, _, _, whole⟩
  | @new via known between ns seen m inside steps new search rest head tail =>
    have away : via ≠ some n := fun same =>
      (Searches.new new search rest).enter_not_mem (sent n same) entered
    rcases enter_mem_entry_append.1 entered with rfl | here | later
    · obtain ⟨_, _, _, turn⟩ := search.exists_turn_of_via free.enter List.mem_cons_self split
      exact rest.exists_turn_of_inner away (search.known_subset List.mem_cons_self) turn
    · have sent' : ∀ v, some m = some v → v ∈ m :: known := by
        rintro _ ⟨⟩
        exact List.mem_cons_self
      obtain ⟨_, _, _, turn⟩ := head free.enter sent' here
      exact rest.exists_turn_of_inner away (search.mem_seen_iff.2 (.inr here)) turn
    · have sent' (v : α) (same : via = some v) : v ∈ between :=
        search.known_subset (List.mem_cons_of_mem m (sent v same))
      obtain ⟨_, _, _, turn⟩ := tail (free.leave search) sent' later
      exact search.exists_turn_of_rest away (fun seen => rest.enter_not_mem seen later) turn

end Searches

end Walk

end AnalysisScheduler
