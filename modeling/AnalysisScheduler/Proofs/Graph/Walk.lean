import AnalysisScheduler.Graph.Walk
import Mathlib.Data.List.Chain
import Mathlib.Logic.Relation

/-!
# What a walk visits

A walk that ends without a cycle has entered exactly the nodes that can be reached from its start
nodes and followed exactly their edges (`mem_entered_walk`, `mem_followed_walk`), and no node that
it entered lies on a cycle: each is accessible against the direction of the edges (`acc_walk`). A
walk that ends with a cycle has found a simple one, through nodes that it has entered
(`isSimpleCycle_walk`).

What the errands still owe is said segment by segment (`Owed`): one segment for each node of the
path, with the edges of the node that are still to be followed.
-/

namespace AnalysisScheduler

/-- A cycle of a relation, listed from one of its nodes back to the same node, with no other node
twice. -/
def IsSimpleCycle {α : Type u} (r : α → α → Prop) (nodes : List α) : Prop :=
  ∃ n rest, nodes = n :: (rest ++ [n]) ∧ (n :: rest).Nodup ∧ nodes.IsChain r

theorem IsSimpleCycle.exists_mem_transGen {α : Type u} {r : α → α → Prop} {nodes : List α}
    (simple : IsSimpleCycle r nodes) : ∃ n ∈ nodes, Relation.TransGen r n n := by
  obtain ⟨n, rest, rfl, _, chain⟩ := simple
  refine ⟨n, List.mem_cons_self, ?_⟩
  cases rest with
  | nil => exact .single chain.rel
  | cons m rest =>
    obtain ⟨first, way⟩ := List.isChain_cons_cons.1 chain
    have on := List.relationReflTransGen_of_exists_isChain (m :: rest ++ [n]) way (by simp)
    rw [List.getLast_append_singleton] at on
    exact Relation.TransGen.head' first on

/-- What is accessible against a relation lies on no cycle of it. -/
theorem not_transGen_of_acc {α : Type u} {r : α → α → Prop} {a : α}
    (acc : Acc (fun y x => r x y) a) : ¬ Relation.TransGen r a a := by
  induction acc with
  | intro a _ ih =>
    intro loop
    obtain ⟨b, first, back⟩ := Relation.TransGen.head'_iff.1 loop
    exact ih b first (Relation.TransGen.tail' back first)

namespace WalkStep

variable {α : Type u}

/-- The node that a step enters. -/
def entered? : WalkStep α → Option α
  | enter n => some n
  | follow .. => none

theorem mem_filterMap_entered? {steps : List (WalkStep α)} {n : α} :
    n ∈ steps.filterMap entered? ↔ .enter n ∈ steps := by
  rw [List.mem_filterMap]
  constructor
  · rintro ⟨s, mem, same⟩
    cases s with
    | enter m => exact Option.some.inj same ▸ mem
    | follow => cases same
  · exact fun mem => ⟨_, mem, rfl⟩

end WalkStep

namespace Trail

variable {α : Type u}

theorem entered_after_edge (t : Trail α) (via : Option α) (n : α) :
    (t.after (via.toList.map (WalkStep.follow · n))).entered = t.entered := by
  cases via <;> rfl

theorem entered_after_enter (t : Trail α) (via : Option α) (n : α) :
    (t.after (via.toList.map (WalkStep.follow · n) ++ [.enter n])).entered = n :: t.entered := by
  cases via <;> rfl

theorem followed_after_edge (t : Trail α) (via : Option α) (n : α) :
    (t.after (via.toList.map (WalkStep.follow · n))).followed =
      via.toList.map (·, n) ++ t.followed := by
  cases via <;> rfl

theorem followed_after_enter (t : Trail α) (via : Option α) (n : α) :
    (t.after (via.toList.map (WalkStep.follow · n) ++ [.enter n])).followed =
      via.toList.map (·, n) ++ t.followed := by
  cases via <;> rfl

end Trail

namespace Walk

variable {α : Type u} [DecidableEq α]

/-- The table has an edge from `a` to `b`. -/
def Leads (table : Successors α) (a b : α) : Prop := b ∈ successorsOf table a

/-- Some errand goes to `n`. -/
def Bound (errands : List (Errand α)) (n : α) : Prop := ∃ via, Errand.visit via n ∈ errands

theorem bound_errandsFrom {table : Successors α} {n y : α} {rest : List (Errand α)} :
    Bound (errandsFrom table n ++ rest) y ↔ Leads table n y ∨ Bound rest y := by
  constructor
  · rintro ⟨via, h⟩
    rcases List.mem_append.1 h with h | h
    · rcases List.mem_append.1 h with h | h
      · obtain ⟨z, hz, same⟩ := List.mem_map.1 h
        cases same
        exact .inl hz
      · simp at h
    · exact .inr ⟨via, h⟩
  · rintro (h | ⟨via, h⟩)
    · exact ⟨some n, List.mem_append_left _ (List.mem_append_left _ (List.mem_map_of_mem h))⟩
    · exact ⟨via, List.mem_append_right _ h⟩

/-! ## What is entered -/

/-- Whoever an errand goes to is met, unless the walk ends with a cycle. -/
theorem mem_entered_of_bound {table : Successors α} {visited path : List α}
    {errands : List (Errand α)} (clear : (run table visited path errands).cycle = none) {n : α}
    (bound : Bound errands n) : n ∈ visited ∨ n ∈ (run table visited path errands).entered := by
  fun_induction run table visited path errands with
  | case1 => exact absurd bound.choose_spec List.not_mem_nil
  | case2 visited path rest ih =>
    obtain ⟨via, h⟩ := bound
    exact ih clear ⟨via, by simpa using h⟩
  | case3 => cases clear
  | case4 visited path via m rest edge _ seen ih =>
    rw [Trail.entered_after_edge]
    obtain ⟨via', h⟩ := bound
    rcases List.mem_cons.1 h with same | h
    · cases same
      exact .inl seen
    · exact ih clear ⟨via', h⟩
  | case5 visited path via m rest edge _ _ ih =>
    rw [Trail.entered_after_enter]
    obtain ⟨via', h⟩ := bound
    rcases List.mem_cons.1 h with same | h
    · cases same
      exact .inr List.mem_cons_self
    · rcases ih clear ⟨via', List.mem_append_right _ h⟩ with h | h
      · rcases List.mem_cons.1 h with same | h
        · exact .inr (same ▸ List.mem_cons_self)
        · exact .inl h
      · exact .inr (List.mem_cons_of_mem _ h)

/-- The successors of a node that is entered are met too. -/
theorem mem_entered_of_leads {table : Successors α} {visited path : List α}
    {errands : List (Errand α)} (clear : (run table visited path errands).cycle = none) {n y : α}
    (entered : n ∈ (run table visited path errands).entered) (leads : Leads table n y) :
    y ∈ visited ∨ y ∈ (run table visited path errands).entered := by
  fun_induction run table visited path errands with
  | case1 => exact absurd entered List.not_mem_nil
  | case2 visited path rest ih => exact ih clear entered
  | case3 => cases clear
  | case4 visited path via m rest edge _ seen ih =>
    rw [Trail.entered_after_edge] at entered ⊢
    exact ih clear entered
  | case5 visited path via m rest edge _ _ ih =>
    rw [Trail.entered_after_enter] at entered ⊢
    have met : y ∈ m :: visited ∨
        y ∈ (run table (m :: visited) (m :: path) (errandsFrom table m ++ rest)).entered := by
      rcases List.mem_cons.1 entered with rfl | entered
      · exact mem_entered_of_bound clear (bound_errandsFrom.2 (.inl leads))
      · exact ih clear entered
    rcases met with met | met
    · rcases List.mem_cons.1 met with same | met
      · exact .inr (same ▸ List.mem_cons_self)
      · exact .inl met
    · exact .inr (List.mem_cons_of_mem _ met)

/-- What is entered can be reached from where an errand goes. -/
theorem reachable_of_mem_entered {table : Successors α} {visited path : List α}
    {errands : List (Errand α)} {n : α} (entered : n ∈ (run table visited path errands).entered) :
    ∃ s, Bound errands s ∧ Relation.ReflTransGen (Leads table) s n := by
  fun_induction run table visited path errands with
  | case1 => exact absurd entered List.not_mem_nil
  | case2 visited path rest ih =>
    obtain ⟨s, ⟨via, h⟩, reach⟩ := ih entered
    exact ⟨s, ⟨via, List.mem_cons_of_mem _ h⟩, reach⟩
  | case3 visited path via m rest edge _ =>
    cases via <;> exact absurd entered List.not_mem_nil
  | case4 visited path via m rest edge _ _ ih =>
    rw [Trail.entered_after_edge] at entered
    obtain ⟨s, ⟨via', h⟩, reach⟩ := ih entered
    exact ⟨s, ⟨via', List.mem_cons_of_mem _ h⟩, reach⟩
  | case5 visited path via m rest edge _ _ ih =>
    rw [Trail.entered_after_enter] at entered
    have here : Bound (.visit via m :: rest) m := ⟨via, List.mem_cons_self⟩
    rcases List.mem_cons.1 entered with rfl | entered
    · exact ⟨n, here, .refl⟩
    · obtain ⟨s, bound, reach⟩ := ih entered
      rcases bound_errandsFrom.1 bound with leads | ⟨via', h⟩
      · exact ⟨m, here, .head leads reach⟩
      · exact ⟨s, ⟨via', List.mem_cons_of_mem _ h⟩, reach⟩

/-- In a list that is grounded in `known`, everybody is known before or a successor of somebody
who comes earlier. -/
def Grounded (table : Successors α) (known : α → Prop) : List α → Prop
  | [] => True
  | n :: rest => known n ∧ Grounded table (fun y => known y ∨ Leads table n y) rest

theorem Grounded.mono {table : Successors α} {known known' : α → Prop}
    {ns : List α} (grounded : Grounded table known ns) (imp : ∀ n, known n → known' n) :
    Grounded table known' ns := by
  induction ns generalizing known known' with
  | nil => exact trivial
  | cons n ns ih => exact ⟨imp n grounded.1, ih grounded.2 fun y => Or.imp_left (imp y)⟩

theorem Grounded.mem_or_leads {table : Successors α} {known : α → Prop} {ns : List α}
    (grounded : Grounded table known ns) {n : α} (mem : n ∈ ns) :
    known n ∨ ∃ m ∈ ns, Leads table m n := by
  induction ns generalizing known with
  | nil => exact absurd mem List.not_mem_nil
  | cons m ns ih =>
    rcases List.mem_cons.1 mem with rfl | mem
    · exact .inl grounded.1
    · rcases ih grounded.2 mem with (h | leads) | ⟨m', mem', leads⟩
      · exact .inl h
      · exact .inr ⟨m, List.mem_cons_self, leads⟩
      · exact .inr ⟨m', List.mem_cons_of_mem m mem', leads⟩

/-- Nodes are entered along edges: a node comes after one that leads to it. -/
theorem grounded_entered {table : Successors α} {visited path : List α}
    {errands : List (Errand α)} : ∀ known : α → Prop, (∀ n, Bound errands n → known n) →
      Grounded table known (run table visited path errands).entered := by
  fun_induction run table visited path errands with
  | case1 => exact fun _ _ => trivial
  | case2 visited path rest ih =>
    exact fun known start => ih known fun n ⟨via, h⟩ => start n ⟨via, List.mem_cons_of_mem _ h⟩
  | case3 visited path via m rest edge _ =>
    cases via <;> exact fun _ _ => trivial
  | case4 visited path via m rest edge _ _ ih =>
    rw [Trail.entered_after_edge]
    exact fun known start => ih known fun n ⟨via', h⟩ => start n ⟨via', List.mem_cons_of_mem _ h⟩
  | case5 visited path via m rest edge _ _ ih =>
    intro known start
    rw [Trail.entered_after_enter]
    refine ⟨start m ⟨via, List.mem_cons_self⟩, ih _ fun y bound => ?_⟩
    rcases bound_errandsFrom.1 bound with leads | ⟨via', h⟩
    · exact .inr leads
    · exact .inl (start y ⟨via', List.mem_cons_of_mem _ h⟩)

/-! ## What is followed -/

omit [DecidableEq α] in
theorem mem_edge_of_errand {a b m : α} {via : Option α} :
    (a, b) ∈ via.toList.map (·, m) ↔ Errand.visit (some a) b = .visit via m := by
  cases via <;> simp

theorem mem_errandsFrom {table : Successors α} {a b n : α} :
    .visit (some a) b ∈ errandsFrom table n ↔ a = n ∧ Leads table a b := by
  simp only [errandsFrom, List.mem_append, List.mem_map, List.mem_singleton, reduceCtorEq,
    or_false, Errand.visit.injEq, Option.some.injEq]
  constructor
  · rintro ⟨y, leads, rfl, rfl⟩
    exact ⟨rfl, leads⟩
  · rintro ⟨rfl, leads⟩
    exact ⟨b, leads, rfl, rfl⟩

/-- The edges that are followed are those of the errands and those of the nodes that are entered. -/
theorem mem_followed_run {table : Successors α} {visited path : List α}
    {errands : List (Errand α)} (clear : (run table visited path errands).cycle = none) {a b : α} :
    (a, b) ∈ (run table visited path errands).followed ↔
      .visit (some a) b ∈ errands ∨
        (a ∈ (run table visited path errands).entered ∧ Leads table a b) := by
  fun_induction run table visited path errands with
  | case1 => simp [Trail.followed, Trail.entered]
  | case2 visited path rest ih => simp [ih clear]
  | case3 => cases clear
  | case4 visited path via m rest edge _ _ ih =>
    rw [Trail.followed_after_edge, Trail.entered_after_edge, List.mem_append, ih clear,
      mem_edge_of_errand, List.mem_cons, or_assoc]
  | case5 visited path via m rest edge _ _ ih =>
    rw [Trail.followed_after_enter, Trail.entered_after_enter, List.mem_append, ih clear,
      mem_edge_of_errand, List.mem_append, mem_errandsFrom, List.mem_cons, List.mem_cons]
    constructor
    · rintro (h | (⟨rfl, leads⟩ | h) | ⟨h, leads⟩)
      · exact .inl (.inl h)
      · exact .inr ⟨.inl rfl, leads⟩
      · exact .inl (.inr h)
      · exact .inr ⟨.inr h, leads⟩
    · rintro ((h | h) | ⟨rfl | h, leads⟩)
      · exact .inl h
      · exact .inr (.inl (.inr h))
      · exact .inr (.inl (.inl ⟨rfl, leads⟩))
      · exact .inr (.inr ⟨h, leads⟩)

/-! ## Cycles -/

/-- What the errands owe to the nodes of a path, the last first: each node has the edges that are
still to be followed in a segment of its own, and its other successors are settled or come next
on the path. -/
def Owed (table : Successors α) (Settled : α → Prop) : List α → List (Errand α) → Prop
  | [], errands => ∀ e ∈ errands, ∃ n, e = .visit none n
  | p :: path, errands => ∃ (todo : List α) (rest : List (Errand α)),
      errands = todo.map (.visit (some p)) ++ .leave :: rest ∧
      (∀ y ∈ todo, Leads table p y) ∧
      (∀ y, Leads table p y → Settled y ∨ y ∈ todo) ∧
      Owed table (fun y => Settled y ∨ y = p) path rest

theorem Owed.mono {table : Successors α} {Settled Settled' : α → Prop} {path : List α}
    {errands : List (Errand α)} (owed : Owed table Settled path errands)
    (imp : ∀ y, Settled y → Settled' y) : Owed table Settled' path errands := by
  induction path generalizing Settled Settled' errands with
  | nil => exact owed
  | cons p path ih =>
    obtain ⟨todo, rest, eq, sub, all, tail⟩ := owed
    exact ⟨todo, rest, eq, sub, fun y h => (all y h).imp_left (imp y),
      ih tail fun y => Or.imp_left (imp y)⟩

/-- A visit that has been dealt with no longer counts, if its node is settled. -/
theorem Owed.tail {table : Successors α} {Settled : α → Prop} {path : List α} {via : Option α}
    {n : α} {rest : List (Errand α)} (owed : Owed table Settled path (.visit via n :: rest))
    (settled : Settled n) : Owed table Settled path rest := by
  cases path with
  | nil => exact fun e he => owed e (List.mem_cons_of_mem _ he)
  | cons p path =>
    obtain ⟨todo, rest', eq, sub, all, tail⟩ := owed
    cases todo with
    | nil => cases eq
    | cons m todo =>
      cases eq
      refine ⟨todo, rest', rfl, fun y h => sub y (List.mem_cons_of_mem _ h),
        fun y leads => ?_, tail⟩
      rcases all y leads with h | h
      · exact .inl h
      · rcases List.mem_cons.1 h with rfl | h
        · exact .inl settled
        · exact .inr h

/-- Entering a node puts it on the path with all its edges to follow. -/
theorem Owed.enter {table : Successors α} {Settled : α → Prop} {path : List α} {via : Option α}
    {n : α} {rest : List (Errand α)} (owed : Owed table Settled path (.visit via n :: rest)) :
    Owed table Settled (n :: path) (errandsFrom table n ++ rest) := by
  refine ⟨successorsOf table n, rest, by simp [errandsFrom], fun _ h => h, fun _ h => .inr h, ?_⟩
  exact (owed.mono fun _ => .inl).tail (.inr rfl)

/-- A node that is left has no edges to follow any more. -/
theorem Owed.leave {table : Successors α} {Settled : α → Prop} {path : List α}
    {rest : List (Errand α)} (owed : Owed table Settled path (.leave :: rest)) :
    ∃ p path', path = p :: path' ∧ (∀ y, Leads table p y → Settled y) ∧
      Owed table (fun y => Settled y ∨ y = p) path' rest := by
  cases path with
  | nil =>
    obtain ⟨_, h⟩ := owed .leave List.mem_cons_self
    cases h
  | cons p path =>
    obtain ⟨todo, rest', eq, _, all, tail⟩ := owed
    cases todo with
    | nil =>
      cases eq
      exact ⟨p, path, rfl, fun y leads => (all y leads).resolve_right List.not_mem_nil, tail⟩
    | cons _ _ => cases eq

/-- An errand goes to a node from the end of the path, or to a start if there is none. -/
theorem Owed.via_eq {table : Successors α} {Settled : α → Prop} {path : List α} {via : Option α}
    {n : α} {rest : List (Errand α)} (owed : Owed table Settled path (.visit via n :: rest)) :
    via = path.head? := by
  cases path with
  | nil =>
    obtain ⟨_, same⟩ := owed _ List.mem_cons_self
    cases same
    rfl
  | cons p path =>
    obtain ⟨todo, rest', eq, _⟩ := owed
    cases todo with
    | nil => cases eq
    | cons _ _ =>
      cases eq
      rfl

/-- An errand that leaves from a node of a path leaves from its end, along an edge. -/
theorem Owed.leads {table : Successors α} {Settled : α → Prop} {p : α} {path : List α}
    {via : Option α} {n : α} {rest : List (Errand α)}
    (owed : Owed table Settled (p :: path) (.visit via n :: rest)) : Leads table p n := by
  obtain ⟨todo, rest', eq, sub, _, _⟩ := owed
  cases todo with
  | nil => cases eq
  | cons _ _ =>
    cases eq
    exact sub n List.mem_cons_self

/-- Nodes are finished from the bottom up: whoever a walk without a cycle has met is accessible
against the direction of the edges. -/
theorem acc_run {table : Successors α} {visited path : List α} {errands : List (Errand α)}
    (clear : (run table visited path errands).cycle = none)
    (owed : Owed table (Acc fun y x => Leads table x y) path errands)
    (settled : ∀ n ∈ visited, n ∈ path ∨ Acc (fun y x => Leads table x y) n) {n : α}
    (met : n ∈ visited ∨ n ∈ (run table visited path errands).entered) :
    Acc (fun y x => Leads table x y) n := by
  fun_induction run table visited path errands with
  | case1 visited path =>
    cases path with
    | nil =>
      have seen := met.resolve_right List.not_mem_nil
      exact (settled n seen).resolve_left List.not_mem_nil
    | cons p path =>
      obtain ⟨todo, rest, eq, _⟩ := owed
      simp at eq
  | case2 visited path rest ih =>
    -- All successors of the node that is left are settled, so it is settled too.
    obtain ⟨p, path', rfl, all, tail⟩ := owed.leave
    have finished : Acc (fun y x => Leads table x y) p := ⟨p, all⟩
    refine ih clear (tail.mono fun y h => h.elim id fun same => same ▸ finished) ?_ met
    intro m seen
    rcases settled m seen with h | h
    · rcases List.mem_cons.1 h with rfl | h
      · exact .inr finished
      · exact .inl h
    · exact .inr h
  | case3 => cases clear
  | case4 visited path via m rest edge offPath seen ih =>
    rw [Trail.entered_after_edge] at met
    exact ih clear (owed.tail ((settled m seen).resolve_left offPath)) settled met
  | case5 visited path via m rest edge _ _ ih =>
    rw [Trail.entered_after_enter, List.mem_cons] at met
    refine ih clear owed.enter ?_ ?_
    · intro y seen
      rcases List.mem_cons.1 seen with rfl | seen
      · exact .inl List.mem_cons_self
      · exact (settled y seen).imp_left (List.mem_cons_of_mem _)
    · rcases met with h | rfl | h
      · exact .inl (List.mem_cons_of_mem _ h)
      · exact .inl List.mem_cons_self
      · exact .inr h

/-- The nodes from where `n` stands on a path, and `n` again, are a simple cycle if the end of the
path leads to `n`. -/
theorem isSimpleCycle_cycleAt {r : α → α → Prop} {p n : α} {path : List α}
    (chain : (p :: path).IsChain fun b a => r a b) (nodup : (p :: path).Nodup)
    (onPath : n ∈ p :: path) (leads : r p n) : IsSimpleCycle r (cycleAt (p :: path) n) := by
  obtain ⟨later, earlier, split, notLater⟩ := List.eq_append_cons_of_mem onPath
  have back : (p :: path).takeWhile (· ≠ n) = later := by
    rw [split, List.takeWhile_append_of_pos, List.takeWhile_cons_of_neg (by simp), List.append_nil]
    intro m mem
    exact decide_eq_true fun same => notLater (same ▸ mem)
  rw [cycleAt, back]
  refine ⟨n, later.reverse, rfl, ?_, ?_⟩
  · rw [split] at nodup
    rw [List.nodup_cons, List.mem_reverse, (List.reverse_perm later).nodup_iff]
    exact ⟨notLater, (List.nodup_append.1 nodup).1⟩
  · -- The path is listed from its end, so the way from `n` to the end is its beginning reversed.
    have way : (n :: later.reverse).IsChain r := by
      rw [split] at chain
      have first : (later ++ [n]).IsChain fun b a => r a b :=
        (List.isChain_split.1 chain).1
      rw [← List.reverse_concat, List.isChain_reverse]
      exact first
    rw [← List.cons_append]
    refine way.append (List.isChain_singleton n) fun x last y first => ?_
    cases Option.some.inj first
    cases later with
    | nil =>
      cases (List.cons.inj split).1
      cases Option.some.inj last
      exact leads
    | cons q later =>
      cases (List.cons.inj split).1
      rw [List.reverse_cons, ← List.cons_append, List.getLast?_concat] at last
      exact Option.some.inj last ▸ leads

/-- A cycle that a walk finds is a simple cycle of the table, through nodes that it has met. -/
theorem isSimpleCycle_run {table : Successors α} {visited path : List α}
    {errands : List (Errand α)} (owed : Owed table (fun _ => True) path errands)
    (chain : path.IsChain fun b a => Leads table a b) (nodup : path.Nodup) {nodes : List α}
    (found : (run table visited path errands).cycle = some nodes) :
    IsSimpleCycle (Leads table) nodes ∧
      ∀ n ∈ nodes, n ∈ path ∨ n ∈ (run table visited path errands).entered := by
  fun_induction run table visited path errands with
  | case1 => cases found
  | case2 visited path rest ih =>
    obtain ⟨p, path', rfl, _, tail⟩ := owed.leave
    obtain ⟨simple, met⟩ := ih (tail.mono fun _ _ => trivial) chain.tail nodup.tail found
    exact ⟨simple, fun n mem => (met n mem).imp_left (List.mem_cons_of_mem p)⟩
  | case3 visited path via n rest edge onPath =>
    cases found
    cases path with
    | nil => exact absurd onPath List.not_mem_nil
    | cons p path =>
      refine ⟨isSimpleCycle_cycleAt chain nodup onPath owed.leads, fun m mem => .inl ?_⟩
      rw [cycleAt, List.mem_cons, List.mem_append, List.mem_reverse, List.mem_singleton] at mem
      rcases mem with rfl | mem | rfl
      · exact onPath
      · exact (List.takeWhile_sublist _).subset mem
      · exact onPath
  | case4 visited path via n rest edge _ _ ih =>
    rw [Trail.entered_after_edge]
    exact ih (owed.tail trivial) chain nodup found
  | case5 visited path via n rest edge offPath _ ih =>
    rw [Trail.entered_after_enter]
    have chain' : (n :: path).IsChain fun b a => Leads table a b := by
      cases path with
      | nil => exact List.IsChain.singleton _
      | cons p path => exact List.IsChain.cons_cons owed.leads chain
    obtain ⟨simple, met⟩ := ih owed.enter chain' (List.nodup_cons.2 ⟨offPath, nodup⟩) found
    refine ⟨simple, fun m mem => ?_⟩
    rcases met m mem with h | h
    · rcases List.mem_cons.1 h with rfl | h
      · exact .inr List.mem_cons_self
      · exact .inl h
    · exact .inr (List.mem_cons_of_mem _ h)

/-! ## Whole walks -/

section Whole

variable {table : Successors α} {starts : List α}

omit [DecidableEq α] in
theorem bound_starts {n : α} : Bound (starts.map (.visit none)) n ↔ n ∈ starts := by
  constructor
  · rintro ⟨via, h⟩
    obtain ⟨m, hm, same⟩ := List.mem_map.1 h
    cases same
    exact hm
  · exact fun h => ⟨none, List.mem_map_of_mem h⟩

theorem owed_starts {Settled : α → Prop} :
    Owed table Settled [] (starts.map (.visit none)) := by
  intro e he
  obtain ⟨n, _, rfl⟩ := List.mem_map.1 he
  exact ⟨n, rfl⟩

/-- A walk without a cycle enters what can be reached from its start nodes. -/
theorem mem_entered_walk (clear : (walk table starts).cycle = none) {n : α} :
    n ∈ (walk table starts).entered ↔
      ∃ s ∈ starts, Relation.ReflTransGen (Leads table) s n := by
  constructor
  · intro h
    obtain ⟨s, bound, reach⟩ := reachable_of_mem_entered h
    exact ⟨s, bound_starts.1 bound, reach⟩
  · rintro ⟨s, hs, reach⟩
    induction reach with
    | refl =>
      exact (mem_entered_of_bound clear (bound_starts.2 hs)).resolve_left List.not_mem_nil
    | tail _ leads ih => exact (mem_entered_of_leads clear ih leads).resolve_left List.not_mem_nil

/-- A walk without a cycle follows the edges of the nodes that it enters. -/
theorem mem_followed_walk (clear : (walk table starts).cycle = none) {a b : α} :
    (a, b) ∈ (walk table starts).followed ↔
      a ∈ (walk table starts).entered ∧ Leads table a b := by
  refine (mem_followed_run clear).trans (or_iff_right ?_)
  intro h
  obtain ⟨n, _, same⟩ := List.mem_map.1 h
  cases same

/-- What a walk without a cycle enters is accessible against the direction of the edges. -/
theorem acc_walk (clear : (walk table starts).cycle = none) {n : α}
    (entered : n ∈ (walk table starts).entered) : Acc (fun y x => Leads table x y) n :=
  acc_run clear owed_starts (fun _ h => absurd h List.not_mem_nil) (.inr entered)

/-- A walk that ends with a cycle has found a simple one, through nodes that it has entered. -/
theorem isSimpleCycle_walk {nodes : List α} (found : (walk table starts).cycle = some nodes) :
    IsSimpleCycle (Leads table) nodes ∧ ∀ n ∈ nodes, n ∈ (walk table starts).entered := by
  obtain ⟨simple, met⟩ := isSimpleCycle_run owed_starts .nil .nil found
  exact ⟨simple, fun n mem => (met n mem).resolve_left List.not_mem_nil⟩

/-- A walk ends with a cycle exactly if its start nodes lead to one. -/
theorem cycle_walk_eq_none_iff : (walk table starts).cycle = none ↔
    ∀ s ∈ starts, ∀ n, Relation.ReflTransGen (Leads table) s n →
      ¬ Relation.TransGen (Leads table) n n := by
  constructor
  · intro clear s start n reach
    exact not_transGen_of_acc (acc_walk clear ((mem_entered_walk clear).2 ⟨s, start, reach⟩))
  · intro acyclic
    by_contra found
    obtain ⟨nodes, found⟩ := Option.ne_none_iff_exists'.1 found
    obtain ⟨simple, met⟩ := isSimpleCycle_walk found
    obtain ⟨n, mem, loop⟩ := simple.exists_mem_transGen
    obtain ⟨s, bound, reach⟩ := reachable_of_mem_entered (met n mem)
    exact acyclic s (bound_starts.1 bound) n reach loop

theorem grounded_walk : Grounded table (· ∈ starts) (walk table starts).entered :=
  grounded_entered _ fun _ h => bound_starts.1 h

end Whole

end Walk

end AnalysisScheduler
