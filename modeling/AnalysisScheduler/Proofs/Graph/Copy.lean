import AnalysisScheduler.Proofs.Graph.Order

/-!
# A part of a graph under other names

Some nodes of a graph whose edges stay among them, and another graph that has the same edges under
other names (`WaitGraph.Copies`). Resolving nodes on both sides keeps the copy
(`Copies.foldl_resolve`), and both graphs free the same nodes (`Copies.freedBy`) and lead to the
same ones (`Copies.transGen_iff`).
-/

namespace AnalysisScheduler

namespace WaitGraph

variable {α : Type u} {β : Type v} [DecidableEq α] [DecidableEq β]

/-- No edge of `g` joins the nodes of `ns` with others, and `g'` lists the same edges as `g` for
them, under the names that `f` gives. -/
structure Copies (ns : List α) (f : α → β) (g : WaitGraph α) (g' : WaitGraph β) : Prop where
  injective : ∀ a ∈ ns, ∀ b ∈ ns, f a = f b → a = b
  closed : ∀ a ∈ ns, ∀ b, g.Edge a b ∨ g.Edge b a → b ∈ ns
  dependants : ∀ a ∈ ns, g'.dependantsOf (f a) = (g.dependantsOf a).map f
  dependencies : ∀ a ∈ ns, g'.dependenciesOf (f a) = (g.dependenciesOf a).map f

variable {ns : List α} {f : α → β} {g : WaitGraph α} {g' : WaitGraph β} {a b : α}

namespace Copies

theorem mem_map_iff (copies : Copies ns f g g') {xs : List α} (all : ∀ x ∈ xs, x ∈ ns)
    (mem : a ∈ ns) : f a ∈ xs.map f ↔ a ∈ xs := by
  rw [List.mem_map]
  constructor
  · rintro ⟨x, inside, same⟩
    exact copies.injective x (all x inside) a mem same ▸ inside
  · exact fun inside => ⟨a, inside, rfl⟩

theorem dependants_mem (copies : Copies ns f g g') (mem : a ∈ ns) :
    ∀ x ∈ g.dependantsOf a, x ∈ ns := fun x edge => copies.closed a mem x (.inl edge)

theorem dependencies_mem (copies : Copies ns f g g') (mem : a ∈ ns) :
    ∀ x ∈ g.dependenciesOf a, x ∈ ns := fun x edge =>
  copies.closed a mem x (.inr (edge_iff_mem_dependenciesOf.2 edge))

theorem edge_iff (copies : Copies ns f g g') (left : a ∈ ns) (right : b ∈ ns) :
    g'.Edge (f a) (f b) ↔ g.Edge a b := by
  unfold Edge
  rw [copies.dependants a left]
  exact copies.mem_map_iff (copies.dependants_mem left) right

/-! ## Paths -/

theorem exists_of_transGen (copies : Copies ns f g g') (mem : a ∈ ns) {y : β}
    (path : Relation.TransGen g'.Edge (f a) y) :
    ∃ b ∈ ns, y = f b ∧ Relation.TransGen g.Edge a b := by
  have next {x : α} (inside : x ∈ ns) {y : β} (edge : g'.Edge (f x) y) :
      ∃ b ∈ ns, y = f b ∧ g.Edge x b := by
    unfold Edge at edge
    rw [copies.dependants x inside] at edge
    obtain ⟨b, waits, rfl⟩ := List.mem_map.1 edge
    exact ⟨b, copies.dependants_mem inside b waits, rfl, waits⟩
  induction path with
  | single edge =>
    obtain ⟨b, inside, same, edge⟩ := next mem edge
    exact ⟨b, inside, same, .single edge⟩
  | tail _ edge ih =>
    obtain ⟨x, inside, rfl, path⟩ := ih
    obtain ⟨b, there, same, edge⟩ := next inside edge
    exact ⟨b, there, same, path.tail edge⟩

theorem transGen_iff (copies : Copies ns f g g') (left : a ∈ ns) (right : b ∈ ns) :
    Relation.TransGen g'.Edge (f a) (f b) ↔ Relation.TransGen g.Edge a b := by
  constructor
  · intro path
    obtain ⟨x, inside, same, path⟩ := copies.exists_of_transGen left path
    exact copies.injective b right x inside same ▸ path
  · intro path
    have along : b ∈ ns ∧ Relation.TransGen g'.Edge (f a) (f b) := by
      clear right
      induction path with
      | single edge =>
        have there := copies.dependants_mem left _ edge
        exact ⟨there, .single ((copies.edge_iff left there).2 edge)⟩
      | tail _ edge ih =>
        have there := copies.dependants_mem ih.1 _ edge
        exact ⟨there, ih.2.tail ((copies.edge_iff ih.1 there).2 edge)⟩
    exact along.2

/-- Paths do not lead into the part from outside. -/
theorem mem_of_transGen (copies : Copies ns f g g') (mem : b ∈ ns)
    (path : Relation.TransGen g.Edge a b) : a ∈ ns := by
  induction path using Relation.TransGen.head_induction_on with
  | single edge => exact copies.closed b mem _ (.inr edge)
  | head edge _ ih => exact copies.closed _ ih _ (.inr edge)

/-! ## Resolving -/

/-- Nodes are resolved on both sides. Other nodes may be resolved on one side only. -/
theorem foldl_resolve (copies : Copies ns f g g') (xs : List α) (ys : List β)
    (same : ∀ a ∈ ns, f a ∈ ys ↔ a ∈ xs) :
    Copies ns f (xs.foldl resolve g) (ys.foldl resolve g') := by
  -- The same members leave a list on both sides.
  have lists {zs : List α} (all : ∀ z ∈ zs, z ∈ ns) :
      (zs.map f).filter (· ∉ ys) = (zs.filter (· ∉ xs)).map f := by
    rw [List.filter_map]
    refine congrArg _ (List.filter_congr fun z mem => ?_)
    rw [Function.comp_apply, decide_eq_decide]
    exact not_congr (same z (all z mem))
  have less {a b : α} (edge : (xs.foldl resolve g).Edge a b) : g.Edge a b := by
    unfold Edge at edge
    rw [dependantsOf_foldl_resolve] at edge
    split at edge
    · exact absurd edge List.not_mem_nil
    · exact (List.mem_filter.1 edge).1
  refine {
    injective := copies.injective
    closed := fun a mem b edge => copies.closed a mem b (edge.imp less less)
    dependants := fun a mem => ?_
    dependencies := fun a mem => ?_ }
  · rw [dependantsOf_foldl_resolve, dependantsOf_foldl_resolve, copies.dependants a mem,
      lists (copies.dependants_mem mem), apply_ite (List.map f)]
    simp only [same a mem, List.map_nil]
  · rw [dependenciesOf_foldl_resolve, dependenciesOf_foldl_resolve, copies.dependencies a mem,
      lists (copies.dependencies_mem mem), apply_ite (List.map f)]
    simp only [same a mem, List.map_nil]

theorem resolve (copies : Copies ns f g g') (mem : a ∈ ns) :
    Copies ns f (g.resolve a) (g'.resolve (f a)) :=
  copies.foldl_resolve [a] [f a] fun b inside => by
    rw [List.mem_singleton, List.mem_singleton]
    exact ⟨copies.injective b inside a mem, congrArg f⟩

theorem resolve_other (copies : Copies ns f g g') (outside : a ∉ ns) :
    Copies ns f (g.resolve a) g' :=
  copies.foldl_resolve [a] [] fun b inside => by
    rw [List.mem_singleton]
    exact iff_of_false List.not_mem_nil fun same => outside (same ▸ inside)

theorem freedBy (copies : Copies ns f g g') (mem : a ∈ ns) :
    g'.freedBy (f a) = (g.freedBy a).map f := by
  unfold WaitGraph.freedBy
  rw [copies.dependants a mem, List.filter_map]
  refine congrArg _ (List.filter_congr fun x edge => ?_)
  have inside := copies.dependants_mem mem x edge
  have only : (g.dependenciesOf x).map f = [f a] ↔ g.dependenciesOf x = [a] := by
    constructor
    · intro same
      obtain ⟨y, one, image⟩ := List.map_eq_singleton_iff.1 same
      have there := copies.dependencies_mem inside y (one ▸ List.mem_singleton_self y)
      rw [one, copies.injective y there a mem image]
    · intro same
      rw [same]
      rfl
  rw [Function.comp_apply, decide_eq_decide, copies.dependencies x inside, only]
  exact and_congr_left fun _ => not_congr ⟨copies.injective x inside a mem, congrArg f⟩

end Copies

end WaitGraph

end AnalysisScheduler
