import AnalysisScheduler.Proofs.Graph.Walk

/-!
# What ends a walk

A walk whose look-ups can fail goes through all it can reach, or it ends with an obstacle that is
really there (`walk_ends_iff_obstacle`): a simple cycle or a node whose look-up fails, in either
case reached through nodes that could be looked up. It never makes more steps than two for each
start node and each edge, however the edges go round.

A trail that is cut is told apart once by whether a look-up fails on it (`Trail.upTo_cases`). What
stands before the cut is entered along edges of nodes that do not fail (`Walk.Grounded.reaches`),
and nothing else of the table is looked at (`Walk.upTo_walk_congr`).
-/

namespace AnalysisScheduler

namespace Trail

variable {α : Type u} {ε : Type v} {failure : α → Option ε}

theorem cutAt_cons {s : WalkStep α} (fine : ∀ n, s = .enter n → failure n = none)
    (steps : List (WalkStep α)) :
    cutAt failure (s :: steps) = (s :: (cutAt failure steps).1, (cutAt failure steps).2) := by
  cases s with
  | enter n => simp only [cutAt, fine n rfl]
  | follow a b => rfl

theorem cutAt_append {steps : List (WalkStep α)} (fine : ∀ n, .enter n ∈ steps → failure n = none)
    (rest : List (WalkStep α)) :
    cutAt failure (steps ++ rest) = (steps ++ (cutAt failure rest).1, (cutAt failure rest).2) := by
  induction steps with
  | nil => rfl
  | cons s steps ih =>
    rw [List.cons_append, cutAt_cons fun n same => fine n (same ▸ List.mem_cons_self),
      ih fun n mem => fine n (List.mem_cons_of_mem s mem)]
    rfl

/-- Either no look-up fails and nothing is cut off, or the steps end with the first one that
does. -/
theorem cutAt_cases (failure : α → Option ε) (steps : List (WalkStep α)) :
    (cutAt failure steps = (steps, none) ∧ ∀ n, .enter n ∈ steps → failure n = none) ∨
      ∃ before n rest e, steps = before ++ .enter n :: rest ∧ failure n = some e ∧
        cutAt failure steps = (before ++ [.enter n], some e) ∧
        ∀ m, .enter m ∈ before → failure m = none := by
  induction steps with
  | nil => exact .inl ⟨rfl, fun n mem => absurd mem List.not_mem_nil⟩
  | cons s steps ih =>
    by_cases fine : ∀ n, s = .enter n → failure n = none
    · have all {before : List (WalkStep α)} (tail : ∀ m, .enter m ∈ before → failure m = none)
          (m : α) (mem : .enter m ∈ s :: before) : failure m = none :=
        (List.mem_cons.1 mem).elim (fun same => fine m same.symm) (tail m)
      rw [cutAt_cons fine]
      rcases ih with ⟨eq, tail⟩ | ⟨before, n, rest, e, rfl, fails, eq, tail⟩
      · rw [eq]
        exact .inl ⟨rfl, all tail⟩
      · rw [eq]
        exact .inr ⟨s :: before, n, rest, e, rfl, fails, rfl, all tail⟩
    · push Not at fine
      obtain ⟨n, rfl, fails⟩ := fine
      obtain ⟨e, fails⟩ := Option.ne_none_iff_exists'.1 fails
      exact .inr ⟨[], n, steps, e, rfl, fails, by simp only [cutAt, fails, List.nil_append], nofun⟩

theorem mem_entered {t : Trail α} {n : α} : n ∈ t.entered ↔ .enter n ∈ t.steps :=
  WalkStep.mem_filterMap_entered?

theorem upTo_eq (t : Trail α) (failure : α → Option ε) :
    t.upTo failure = ((cutAt failure t.steps).1,
      ((cutAt failure t.steps).2.map .failure).or (t.cycle.map .cycle)) := by
  unfold upTo
  split
  · next eq =>
    rw [eq]
    rfl
  · next eq =>
    rw [eq]
    rfl

theorem after_append (t : Trail α) (steps more : List (WalkStep α)) :
    t.after (steps ++ more) = (t.after more).after steps :=
  congrArg (Trail.mk · t.cycle) (List.append_assoc steps more t.steps)

theorem upTo_after {steps : List (WalkStep α)} (fine : ∀ n, .enter n ∈ steps → failure n = none)
    (t : Trail α) : (t.after steps).upTo failure =
      (steps ++ (t.upTo failure).1, (t.upTo failure).2) := by
  rw [upTo_eq, upTo_eq, after, cutAt_append fine]

theorem upTo_after_enter {n : α} {e : ε} (fails : failure n = some e) (t : Trail α) :
    (t.after [.enter n]).upTo failure = ([.enter n], some (.failure e)) := by
  rw [upTo_eq, after, List.singleton_append, cutAt, fails]
  rfl

/-- A trail ends as it did without failures, or at the first node that it cannot enter. -/
theorem upTo_cases (t : Trail α) (failure : α → Option ε) :
    (t.upTo failure = (t.steps, t.cycle.map .cycle) ∧ ∀ n ∈ t.entered, failure n = none) ∨
      ∃ before n rest e, t.entered = before ++ n :: rest ∧ failure n = some e ∧
        (t.upTo failure).2 = some (.failure e) ∧ (t.upTo failure).1 <+: t.steps ∧
        ∀ m ∈ before, failure m = none := by
  unfold upTo
  rcases cutAt_cases failure t.steps with ⟨eq, all⟩ | ⟨before, n, rest, e, split, fails, eq, all⟩
  · rw [eq]
    exact .inl ⟨rfl, fun n mem => all n (mem_entered.1 mem)⟩
  · rw [eq]
    refine .inr ⟨(⟨before, none⟩ : Trail α).entered, n, (⟨rest, none⟩ : Trail α).entered, e, ?_,
      fails, rfl, ⟨rest, ?_⟩, fun m mem => all m (mem_entered.1 mem)⟩
    · unfold entered
      rw [split, List.filterMap_append]
      rfl
    · rw [split, List.append_assoc, List.singleton_append]

end Trail

namespace Walk

variable {α : Type u} [DecidableEq α] {ε : Type v}

/-! ## Length -/

/-- How many errands go to a node. -/
def visits : List (Errand α) → Nat
  | [] => 0
  | .visit .. :: rest => visits rest + 1
  | .leave :: rest => visits rest

omit [DecidableEq α] in
theorem visits_map_append (via : Option α) (ns : List α) (rest : List (Errand α)) :
    visits (ns.map (.visit via) ++ rest) = ns.length + visits rest := by
  induction ns with
  | nil => exact (Nat.zero_add _).symm
  | cons n ns ih =>
    rw [List.map_cons, List.cons_append, visits, ih, List.length_cons]
    omega

theorem visits_errandsFrom_append (table : Successors α) (n : α) (rest : List (Errand α)) :
    visits (errandsFrom table n ++ rest) = (successorsOf table n).length + visits rest := by
  unfold errandsFrom
  rw [List.append_assoc, visits_map_append]
  rfl

/-- Each errand that goes to a node is worth two steps, and so is each edge of a node that is not
yet visited. -/
theorem length_steps_run_le (table : Successors α) (visited path : List α)
    (errands : List (Errand α)) :
    (run table visited path errands).steps.length ≤
      unvisitedCost table visited + 2 * visits errands := by
  have single (via : Option α) (n : α) : (via.toList.map (WalkStep.follow · n)).length ≤ 1 := by
    cases via <;> simp
  fun_induction run table visited path errands with
  | case1 => exact Nat.zero_le _
  | case2 visited path rest ih => exact ih
  | case3 visited path via n rest edge _ =>
    have one : edge.length ≤ 1 := single via n
    simp only [visits]
    omega
  | case4 visited path via n rest edge _ _ ih =>
    have one : edge.length ≤ 1 := single via n
    simp only [Trail.after, List.length_append, visits]
    omega
  | case5 visited path via n rest edge _ unseen ih =>
    have one : edge.length ≤ 1 := single via n
    have paid := unvisitedCost_cons_add_le table unseen
    simp only [Trail.after, List.length_append, List.length_singleton, visits,
      visits_errandsFrom_append] at ih ⊢
    omega

/-- The edges of a table. -/
def edgesOf (table : Successors α) : List (α × α) :=
  table.entries.flatMap fun e => e.2.map (e.1, ·)

theorem length_steps_walk_le (table : Successors α) (starts : List α) :
    (walk table starts).steps.length ≤ 2 * (starts.length + (edgesOf table).length) := by
  have bound := length_steps_run_le table [] [] (starts.map (.visit none))
  have errands := visits_map_append none starts []
  have edges : unvisitedCost table [] = 2 * (edgesOf table).length := by
    simp [unvisitedCost, edgesOf, List.length_flatMap]
  rw [List.append_nil] at errands
  rw [errands, edges] at bound
  exact bound.trans (by simp only [visits]; omega)

/-! ## Look-ups that fail -/

variable {failure : α → Option ε}

/-- What a look-up would have told does not matter if it fails: the walk ends there. -/
theorem upTo_run_congr {table table' : Successors α}
    (agree : ∀ n, failure n = none → successorsOf table n = successorsOf table' n)
    (visited path : List α) (errands : List (Errand α)) :
    (run table visited path errands).upTo failure =
      (run table' visited path errands).upTo failure := by
  have noNode (via : Option α) (n : α) :
      ∀ m, .enter m ∈ via.toList.map (WalkStep.follow · n) → failure m = none := by
    cases via <;> simp
  fun_induction run table visited path errands with
  | case1 visited path => rw [run]
  | case2 visited path rest ih =>
    rw [run]
    exact ih
  | case3 visited path via n rest edge onPath => rw [run, if_pos onPath]
  | case4 visited path via n rest edge offPath seen ih =>
    rw [run, if_neg offPath, if_pos seen, Trail.upTo_after (noNode via n),
      Trail.upTo_after (noNode via n), ih]
  | case5 visited path via n rest edge offPath unseen ih =>
    rw [run, if_neg offPath, if_neg unseen, Trail.after_append, Trail.after_append,
      Trail.upTo_after (noNode via n), Trail.upTo_after (noNode via n)]
    cases fails : failure n with
    | none =>
      have entered : ∀ m, .enter m ∈ [WalkStep.enter n] → failure m = none := by simpa using fails
      have same : errandsFrom table n = errandsFrom table' n := by
        rw [errandsFrom, agree n fails, errandsFrom]
      rw [Trail.upTo_after entered, Trail.upTo_after entered, ih, same]
    | some e => rw [Trail.upTo_after_enter fails, Trail.upTo_after_enter fails]

theorem upTo_walk_congr {table table' : Successors α}
    (agree : ∀ n, failure n = none → successorsOf table n = successorsOf table' n)
    (starts : List α) : (walk table starts).upTo failure = (walk table' starts).upTo failure :=
  upTo_run_congr agree [] [] _

/-! ## Reached nodes -/

/-- The edges as the look-ups tell them: a node whose look-up fails has none. -/
def Tells (table : Successors α) (failure : α → Option ε) (a b : α) : Prop :=
  failure a = none ∧ Leads table a b

/-- A node is reached from the start nodes, through nodes that can be looked up. -/
def Reaches (table : Successors α) (failure : α → Option ε) (starts : List α) (n : α) : Prop :=
  ∃ s ∈ starts, Relation.ReflTransGen (Tells table failure) s n

variable {table : Successors α} {starts : List α}

theorem Reaches.leads {n : α} (reaches : Reaches table failure starts n) :
    ∃ s ∈ starts, Relation.ReflTransGen (Leads table) s n := by
  obtain ⟨s, start, reach⟩ := reaches
  exact ⟨s, start, Relation.ReflTransGen.mono (fun _ _ => And.right) s n reach⟩

/-- A node is reached if whoever comes before it in a grounded list can be looked up. -/
theorem Grounded.reaches {known : α → Prop} {before rest : List α} {n : α}
    (grounded : Grounded table known (before ++ n :: rest))
    (start : ∀ m, known m → Reaches table failure starts m)
    (fine : ∀ m ∈ before, failure m = none) : Reaches table failure starts n := by
  induction before generalizing known with
  | nil => exact start n grounded.1
  | cons m before ih =>
    obtain ⟨first, others⟩ := List.forall_mem_cons.1 fine
    refine ih grounded.2 (fun y near => ?_) others
    rcases near with near | leads
    · exact start y near
    · obtain ⟨s, isStart, reach⟩ := start m grounded.1
      exact ⟨s, isStart, reach.tail ⟨first, leads⟩⟩

theorem reaches_of_entered_eq_append {before rest : List α} {n : α}
    (split : (walk table starts).entered = before ++ n :: rest)
    (fine : ∀ m ∈ before, failure m = none) : Reaches table failure starts n := by
  have grounded : Grounded table (· ∈ starts) (walk table starts).entered := grounded_walk
  rw [split] at grounded
  exact grounded.reaches (fun m start => ⟨m, start, .refl⟩) fine

theorem reaches_of_mem_entered (fine : ∀ m ∈ (walk table starts).entered, failure m = none) {n : α}
    (entered : n ∈ (walk table starts).entered) : Reaches table failure starts n := by
  obtain ⟨before, rest, split⟩ := List.append_of_mem entered
  rw [split] at fine
  exact reaches_of_entered_eq_append split fun m mem => fine m (List.mem_append_left _ mem)

/-- What an obstacle says about the nodes that are reached. -/
def Explains (table : Successors α) (failure : α → Option ε) (starts : List α) :
    Obstacle α ε → Prop
  | .cycle nodes => IsSimpleCycle (Leads table) nodes ∧
      ∀ n ∈ nodes, failure n = none ∧ Reaches table failure starts n
  | .failure e => ∃ n, failure n = some e ∧ Reaches table failure starts n

end Walk

/-- A walk whose look-ups can fail goes through without an obstacle if and only if no node that can
be reached fails or lies on a cycle. Any obstacle that ends it is there, and in any case it ends
after two steps for each start node and each edge at most. -/
theorem walk_ends_iff_obstacle {α : Type u} [DecidableEq α] {ε : Type v}
    (table : Walk.Successors α) (starts : List α) (failure : α → Option ε) :
    ((walk table starts).upTo failure).1.length ≤
        2 * (starts.length + (Walk.edgesOf table).length) ∧
      (((walk table starts).upTo failure).2 = none ↔
        ∀ n, (∃ s ∈ starts, Relation.ReflTransGen (Walk.Leads table) s n) →
          failure n = none ∧ ¬ Relation.TransGen (Walk.Leads table) n n) ∧
      ∀ obstacle, ((walk table starts).upTo failure).2 = some obstacle →
        Walk.Explains table failure starts obstacle := by
  have short := Walk.length_steps_walk_le table starts
  rcases (walk table starts).upTo_cases failure with
    ⟨eq, fine⟩ | ⟨before, n, rest, e, split, fails, found, part, fine⟩
  · cases ended : (walk table starts).cycle with
    | none =>
      rw [eq, ended]
      refine ⟨short, iff_of_true rfl fun n reach => ?_, nofun⟩
      have entered := (Walk.mem_entered_walk ended).2 reach
      exact ⟨fine n entered, not_transGen_of_acc (Walk.acc_walk ended entered)⟩
    | some nodes =>
      obtain ⟨simple, met⟩ := Walk.isSimpleCycle_walk ended
      have reached (n : α) (mem : n ∈ nodes) := Walk.reaches_of_mem_entered fine (met n mem)
      rw [eq, ended]
      refine ⟨short, iff_of_false nofun fun all => ?_, ?_⟩
      · obtain ⟨n, mem, loop⟩ := simple.exists_mem_transGen
        exact (all n (reached n mem).leads).2 loop
      · rintro _ ⟨⟩
        exact ⟨simple, fun n mem => ⟨fine n (met n mem), reached n mem⟩⟩
  · have reached := Walk.reaches_of_entered_eq_append split fine
    rw [found]
    refine ⟨part.length_le.trans short, iff_of_false nofun fun all => ?_, ?_⟩
    · rw [(all n reached.leads).1] at fails
      cases fails
    · rintro _ ⟨⟩
      exact ⟨n, fails, reached⟩

end AnalysisScheduler
