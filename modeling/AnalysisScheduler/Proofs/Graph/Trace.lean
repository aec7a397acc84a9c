import AnalysisScheduler.Proofs.Graph.Obstacles
import AnalysisScheduler.Proofs.Graph.Search

/-!
# The steps of a walk, one by one

A walk goes like the plain search that only remembers which nodes it has seen. If it goes through,
its steps are those of the search: each node that can be reached is entered once, each of its edges
is followed in its turn, and what an edge leads to for the first time is entered right after it
(`GoesThrough`). If it ends early, its steps are a beginning of those of the search, up to the very
step that shows the obstacle (`walk_goes_like_search`): up to the one before, no look-up has failed
and the edges that were followed make no cycle.
-/

namespace AnalysisScheduler

namespace Walk

/-! ## Edges that have been followed -/

section Followed

variable {α : Type u}

/-- Some step follows the edge from `a` to `b`. -/
def Follows (steps : List (WalkStep α)) (a b : α) : Prop := .follow a b ∈ steps

/-- The edges that are followed make no cycle. -/
def NoCycle (steps : List (WalkStep α)) : Prop := ∀ n, ¬ Relation.TransGen (Follows steps) n n

theorem NoCycle.mono {steps more : List (WalkStep α)} (clear : NoCycle more) (sub : steps ⊆ more) :
    NoCycle steps :=
  fun n loop => clear n (Relation.TransGen.mono (fun _ _ followed => sub followed) n n loop)

/-- After some steps, the nodes that have been left and then those of the path, its end first: in
this order every edge that was followed leads back. -/
structure Ranked (past : List (WalkStep α)) (visited path left : List α) : Prop where
  nodup : (left ++ path).Nodup
  mem_iff : ∀ n, n ∈ visited ↔ n ∈ left ++ path
  back : ∀ a b, Follows past a b → [b, a].Sublist (left ++ path)
  chain : path.IsChain fun b a => Follows past a b

namespace Ranked

variable {past : List (WalkStep α)} {visited path left : List α} {via : Option α} {n p : α}

theorem empty : Ranked ([] : List (WalkStep α)) [] [] [] :=
  ⟨.nil, fun _ => .rfl, nofun, .nil⟩

theorem noCycle [DecidableEq α] (ranked : Ranked past visited path left) : NoCycle past := by
  -- Places fall along every edge that was followed, so no way leads back to where it began.
  have places : (left ++ path).Pairwise fun b a =>
      (left ++ path).idxOf b < (left ++ path).idxOf a := by
    rw [List.pairwise_iff_getElem]
    intro i j _ _ less
    rwa [ranked.nodup.idxOf_getElem, ranked.nodup.idxOf_getElem]
  have step {a b : α} (followed : Follows past a b) :
      (left ++ path).idxOf b < (left ++ path).idxOf a := by
    simpa using places.sublist (ranked.back a b followed)
  have falls {a b : α} (way : Relation.TransGen (Follows past) a b) :
      (left ++ path).idxOf b < (left ++ path).idxOf a := by
    induction way with
    | single followed => exact step followed
    | tail _ followed ih => exact (step followed).trans ih
  exact fun n loop => Nat.lt_irrefl _ (falls loop)

/-- A node that is left keeps its place. -/
theorem leave (ranked : Ranked past visited (p :: path) left) :
    Ranked past visited path (left ++ [p]) := by
  have same : left ++ [p] ++ path = left ++ p :: path := by simp
  exact ⟨same ▸ ranked.nodup, same ▸ ranked.mem_iff, same ▸ ranked.back, ranked.chain.tail⟩

theorem back_append (ranked : Ranked past visited path left) (sent : via = path.head?)
    {order : List α} (keeps : (left ++ path).Sublist order)
    (new : ∀ p, path.head? = some p → [n, p].Sublist order) {steps : List (WalkStep α)}
    (only : ∀ a b, Follows steps a b → .follow a b ∈ arrival via n) {a b : α}
    (followed : Follows (past ++ steps) a b) : [b, a].Sublist order := by
  rcases List.mem_append.1 followed with old | here
  · exact (ranked.back a b old).trans keeps
  · obtain ⟨last, rfl⟩ := follow_mem_arrival.1 (only a b here)
    exact new a (sent ▸ last)

/-- An edge to a node that has been left leads back. -/
theorem pass (ranked : Ranked past visited path left) (sent : via = path.head?)
    (seen : n ∈ visited) (off : n ∉ path) :
    Ranked (past ++ arrival via n) visited path left := by
  have gone : n ∈ left := (List.mem_append.1 ((ranked.mem_iff n).1 seen)).resolve_right off
  have place (p : α) (last : path.head? = some p) : [n, p].Sublist (left ++ path) :=
    (List.singleton_sublist.2 gone).append
      (List.singleton_sublist.2 (List.mem_of_mem_head? last))
  exact ⟨ranked.nodup, ranked.mem_iff,
    fun a b => ranked.back_append sent (.refl _) place fun _ _ => id,
    ranked.chain.imp fun _ _ => List.mem_append_left _⟩

/-- A node that is entered has its place before the one that it was entered from. -/
theorem enter (ranked : Ranked past visited path left) (sent : via = path.head?)
    (unseen : n ∉ visited) :
    Ranked (past ++ (arrival via n ++ [.enter n])) (n :: visited) (n :: path) left := by
  have fresh := mt (ranked.mem_iff n).2 unseen
  have insert : (left ++ n :: path).Perm (n :: (left ++ path)) := List.perm_middle
  have place (p : α) (last : path.head? = some p) : [n, p].Sublist (left ++ n :: path) := by
    obtain ⟨rest, rfl⟩ := List.head?_eq_some_iff.1 last
    exact ((List.nil_sublist rest).cons_cons p |>.cons_cons n).trans (List.sublist_append_right _ _)
  refine ⟨insert.nodup_iff.2 (List.nodup_cons.2 ⟨fresh, ranked.nodup⟩), fun x => ?_,
    fun a b => ranked.back_append sent ((List.sublist_cons_self n path).append_left left) place
      fun a b here => (List.mem_append.1 here).resolve_right (by simp), ?_⟩
  · rw [insert.mem_iff, List.mem_cons, List.mem_cons, ranked.mem_iff]
  · have chain := ranked.chain.imp fun b a (followed : Follows past a b) =>
      List.mem_append_left (arrival via n ++ [.enter n]) followed
    cases path with
    | nil => exact .singleton n
    | cons p path =>
      refine .cons_cons ?_ chain
      exact List.mem_append_right _ (List.mem_append_left _ (follow_mem_arrival.2 ⟨sent, rfl⟩))

end Ranked

end Followed

variable {α : Type u} [DecidableEq α] {table : Successors α}

/-! ## Walks and searches -/

/-- A walk through a list takes the steps of the search and goes on from what the search has seen,
or it meets a cycle on the way. -/
theorem run_cases {via : Option α} {known ns seen : List α} {steps : List (WalkStep α)}
    (searches : Searches table via known ns steps seen) {path : List α} (onPath : path ⊆ known)
    (rest : List (Errand α)) :
    run table known path (ns.map (.visit via) ++ rest) = (run table seen path rest).after steps ∨
      ((run table known path (ns.map (.visit via) ++ rest)).cycle ≠ none ∧
        (run table known path (ns.map (.visit via) ++ rest)).steps <+: steps) := by
  induction searches generalizing path rest with
  | done => exact .inl rfl
  | @old via known ns seen n steps old search tail =>
    rw [List.map_cons, List.cons_append, run]
    by_cases here : n ∈ path
    · rw [if_pos here]
      exact .inr ⟨Option.some_ne_none _, List.prefix_append _ _⟩
    · rw [if_neg here, if_pos old]
      rcases tail onPath rest with through | ⟨found, part⟩
      · rw [through]
        exact .inl (Trail.after_append ..).symm
      · exact .inr ⟨found, (List.prefix_append_right_inj _).2 part⟩
  | @new via known between ns seen n inner steps new search _ head tail =>
    have off : n ∉ path := fun here => new (onPath here)
    have whole : arrival via n ++ .enter n :: (inner ++ steps) =
        (arrival via n ++ [.enter n]) ++ (inner ++ steps) := by simp
    -- The errands are now those of the node, the step back from it, and those that were left.
    rw [List.map_cons, List.cons_append, run, if_neg off, if_neg new, errandsFrom,
      List.append_assoc, whole]
    rcases head (List.cons_subset_cons n onPath) ([.leave] ++ (ns.map (.visit via) ++ rest)) with
      through | ⟨found, part⟩
    · rw [through, List.singleton_append, run, List.tail_cons]
      have onPath' : path ⊆ between := fun p mem =>
        search.known_subset (List.mem_cons_of_mem n (onPath mem))
      rcases tail onPath' rest with through | ⟨found, part⟩
      · rw [through, Trail.after_append _ (_ ++ [_]) (inner ++ steps),
          Trail.after_append _ inner steps]
        exact .inl rfl
      · exact .inr ⟨found, (List.prefix_append_right_inj _).2
          ((List.prefix_append_right_inj _).2 part)⟩
    · exact .inr ⟨found, (List.prefix_append_right_inj _).2 (part.trans (List.prefix_append _ _))⟩

/-- The steps end with the edge that closes a cycle: the edges before it, those of `past` among
them, make none yet, and with it they make up a simple one. -/
def Closes (past steps : List (WalkStep α)) (nodes : List α) : Prop :=
  ∃ before a b front, steps = before ++ [.follow a b] ∧ nodes = front ++ [a, b] ∧
    NoCycle (past ++ before) ∧ IsSimpleCycle (Follows (past ++ steps)) nodes

omit [DecidableEq α] in
theorem Closes.after {past first steps : List (WalkStep α)} {nodes : List α}
    (closes : Closes (past ++ first) steps nodes) : Closes past (first ++ steps) nodes := by
  obtain ⟨before, a, b, front, rfl, last, clear, simple⟩ := closes
  rw [List.append_assoc] at clear simple
  exact ⟨first ++ before, a, b, front, (List.append_assoc ..).symm, last, clear, simple⟩

/-- A cycle is listed up to the end of the path and the node that is met again. -/
theorem exists_cycleAt_eq (p n : α) (path : List α) :
    ∃ front, cycleAt (p :: path) n = front ++ [p, n] := by
  by_cases same : p = n
  · exact ⟨[], by simp [cycleAt, same]⟩
  · exact ⟨n :: (path.takeWhile (· ≠ n)).reverse, by simp [cycleAt, same]⟩

/-- A run that finds a cycle ends with the edge that closes it. -/
theorem closes_run {visited path : List α} {errands : List (Errand α)}
    (owed : Owed table (fun _ => True) path errands) {nodes : List α}
    (found : (run table visited path errands).cycle = some nodes) :
    ∀ {past : List (WalkStep α)} {left : List α}, Ranked past visited path left →
      Closes past (run table visited path errands).steps nodes := by
  fun_induction run table visited path errands with
  | case1 => cases found
  | case2 visited path rest ih =>
    intro past left ranked
    obtain ⟨p, path', rfl, _, tail⟩ := owed.leave
    exact ih (tail.mono fun _ _ => trivial) found ranked.leave
  | case3 visited path via n rest edge onPath =>
    intro past left ranked
    cases found
    cases path with
    | nil => exact absurd onPath List.not_mem_nil
    | cons p path =>
      have sent : via = some p := owed.via_eq
      subst sent
      obtain ⟨front, last⟩ := exists_cycleAt_eq p n path
      have chain := ranked.chain.imp fun b a (followed : Follows past a b) =>
        List.mem_append_left [WalkStep.follow p n] followed
      have simple := isSimpleCycle_cycleAt chain (List.nodup_append.1 ranked.nodup).2.1 onPath
        (List.mem_append_right past (List.mem_singleton_self (WalkStep.follow p n)))
      exact ⟨[], p, n, front, rfl, last, (List.append_nil past).symm ▸ ranked.noCycle, simple⟩
  | case4 visited path via n rest edge off seen ih =>
    intro past left ranked
    exact (ih (owed.tail trivial) found (ranked.pass owed.via_eq seen off)).after
  | case5 visited path via n rest edge off unseen ih =>
    intro past left ranked
    exact (ih owed.enter found (ranked.enter owed.via_eq unseen)).after

/-! ## Whole walks -/

/-- Steps that go through all that the start nodes lead to. Each node that can be reached is entered
once; from a node that is entered, and from no other, each edge is followed once, in order; and what
an edge leads to for the first time is entered in the turn of the edge. -/
structure GoesThrough (table : Successors α) (starts : List α) (steps : List (WalkStep α)) :
    Prop where
  once : (steps.filterMap WalkStep.entered?).Nodup
  enters : ∀ n, .enter n ∈ steps ↔ ∃ s ∈ starts, Relation.ReflTransGen (Leads table) s n
  follows : ∀ n, .enter n ∈ steps →
    steps.filter (·.leaves n) = (successorsOf table n).map (.follow n)
  source : ∀ a b, .follow a b ∈ steps → .enter a ∈ steps
  turns : ∀ n before s after, .enter n ∈ steps → successorsOf table n = before ++ s :: after →
    ∃ earlier inner later, IsTurn table [] steps n before s after earlier inner later

variable {starts seen : List α} {steps : List (WalkStep α)}

/-- A search that no cycle can be reached from goes through all that it can reach. -/
theorem Searches.goesThrough (searches : Searches table none [] starts steps seen)
    (free : Unhindered table [] [] starts) : GoesThrough table starts steps where
  once := by
    have nodup := searches.nodup_seen .nil
    rw [searches.seen_eq, List.append_nil] at nodup
    exact (List.reverse_perm _).nodup_iff.1 nodup
  enters n := by
    constructor
    · exact searches.reachable
    · rintro ⟨s, start, reach⟩
      have met := free.mem_seen searches start reach
      exact (searches.mem_seen_iff.1 met).resolve_left List.not_mem_nil
  follows n entered := searches.filter_leaves_entered nofun entered
  source a b followed := ((searches.of_follow followed).resolve_left nofun).1
  turns n before s after entered split := searches.exists_turn free nofun entered split

/-- A search that no cycle can be reached from follows none. -/
theorem Searches.noCycle (searches : Searches table none [] starts steps seen)
    (free : Unhindered table [] [] starts) : NoCycle steps := by
  intro n loop
  have edge {a b : α} (followed : Follows steps a b) : .enter a ∈ steps ∧ Leads table a b :=
    (searches.of_follow followed).resolve_left nofun
  obtain ⟨m, first, _⟩ := Relation.TransGen.head'_iff.1 loop
  obtain ⟨s, start, reach⟩ := searches.reachable (edge first).1
  exact free.acyclic s start n reach
    (Relation.TransGen.mono (fun _ _ followed => (edge followed).2) n n loop)

/-- A walk takes all steps of the search, which goes through all that it can reach, or it takes the
first of them, up to one that closes a cycle. -/
theorem walk_cases (table : Successors α) (starts : List α) :
    (walk table starts = ⟨(search table none [] starts).steps, none⟩ ∧
        GoesThrough table starts (walk table starts).steps ∧ NoCycle (walk table starts).steps) ∨
      ∃ nodes, (walk table starts).cycle = some nodes ∧
        (walk table starts).steps <+: (search table none [] starts).steps ∧
        Closes [] (walk table starts).steps nodes := by
  have searches := searches_search table none [] starts
  have cases := run_cases searches (List.nil_subset []) []
  rw [List.append_nil] at cases
  rcases cases with through | ⟨found, part⟩
  · have same : walk table starts = ⟨(search table none [] starts).steps, none⟩ := by
      refine through.trans ?_
      rw [run, Trail.after, List.append_nil]
    have acyclic := cycle_walk_eq_none_iff.1 (congrArg Trail.cycle same)
    have free : Unhindered table [] [] starts := ⟨fun _ mem => absurd mem List.not_mem_nil,
      fun _ _ _ mem => absurd mem List.not_mem_nil, acyclic⟩
    rw [same]
    exact .inl ⟨rfl, searches.goesThrough free, searches.noCycle free⟩
  · obtain ⟨nodes, found⟩ := Option.ne_none_iff_exists'.1 found
    exact .inr ⟨nodes, found, part, closes_run owed_starts found .empty⟩

theorem noCycle_dropLast_walk (table : Successors α) (starts : List α) :
    NoCycle (walk table starts).steps.dropLast := by
  rcases walk_cases table starts with ⟨_, _, clear⟩ | ⟨_, _, _, before, a, b, _, split, _, clear, _⟩
  · exact clear.mono (List.dropLast_subset _)
  · rw [split, List.dropLast_concat]
    exact clear

/-! ## Walks with look-ups that fail -/

section Failing

variable {ε : Type v}

/-- No look-up has failed, and the edges that were followed make no cycle. -/
structure Unobstructed (failure : α → Option ε) (steps : List (WalkStep α)) : Prop where
  fine : ∀ n, .enter n ∈ steps → failure n = none
  noCycle : NoCycle steps

/-- The last of some steps shows an obstacle: the look-up of the node that it enters fails, or the
edge that it follows closes the cycle. -/
def Reveals (failure : α → Option ε) (steps : List (WalkStep α)) :
    WalkStep α → Obstacle α ε → Prop
  | .enter n, .failure e => failure n = some e
  | .follow a b, .cycle nodes =>
    (∃ front, nodes = front ++ [a, b]) ∧ IsSimpleCycle (Follows steps) nodes
  | _, _ => False

end Failing

end Walk

/-- A walk goes like a search that only remembers what it has seen. If nothing ends it before, it
takes the same steps, and they go through all that can be reached from the start nodes. Otherwise
its steps are a beginning of those of the search, and the last of them is the first to show an
obstacle: the one that is returned. -/
theorem walk_goes_like_search {α : Type u} [DecidableEq α] {ε : Type v}
    (table : Walk.Successors α) (starts : List α) (failure : α → Option ε) :
    let walked := (walk table starts).upTo failure
    let plain := (Walk.search table none [] starts).steps
    match walked.2 with
    | none => walked.1 = plain ∧ Walk.Unobstructed failure plain ∧
        Walk.GoesThrough table starts plain
    | some obstacle => walked.1 <+: plain ∧ ∃ before last, walked.1 = before ++ [last] ∧
        Walk.Unobstructed failure before ∧ Walk.Reveals failure walked.1 last obstacle := by
  have clear := Walk.noCycle_dropLast_walk table starts
  have cases := Walk.walk_cases table starts
  have part : (walk table starts).steps <+: (Walk.search table none [] starts).steps := by
    rcases cases with ⟨same, _⟩ | ⟨_, _, part, _⟩
    · exact same ▸ List.prefix_rfl
    · exact part
  dsimp only
  rw [Trail.upTo_eq]
  rcases Trail.cutAt_cases failure (walk table starts).steps with
    ⟨uncut, fine⟩ | ⟨before, n, rest, e, split, fails, cut, fine⟩
  · rw [uncut]
    rcases cases with ⟨same, through, noCycle⟩ | ⟨nodes, found, _, closes⟩
    · rw [same] at through noCycle fine ⊢
      exact ⟨rfl, ⟨fine, noCycle⟩, through⟩
    · obtain ⟨before, a, b, front, split, last, noCycle, simple⟩ := closes
      rw [found]
      have fine' (m : α) (mem : .enter m ∈ before) : failure m = none :=
        fine m (split ▸ List.mem_append_left _ mem)
      exact ⟨part, before, .follow a b, split, ⟨fine', noCycle⟩, ⟨front, last⟩, simple⟩
  · rw [cut]
    rw [split, List.dropLast_append_cons] at clear
    have shorter : before ++ [WalkStep.enter n] <+: (walk table starts).steps :=
      ⟨rest, by rw [split, List.append_assoc, List.singleton_append]⟩
    exact ⟨shorter.trans part, before, .enter n, rfl,
      ⟨fine, clear.mono (List.subset_append_left _ _)⟩, fails⟩

end AnalysisScheduler
