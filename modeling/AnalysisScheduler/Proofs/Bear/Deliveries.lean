import AnalysisScheduler.Bear.Deliveries
import AnalysisScheduler.Proofs.Collection.Distinct
import AnalysisScheduler.Proofs.Collection.OrderedMap
import Mathlib.Data.List.Induction

/-!
# What many deliveries add up to

The deliveries that come from a list of supplies, one after another: under each kind stands the bear
that supplied it first, with all results of that kind in order (`get?_ofSupplies`), and the kinds
stand in the order in which they were first supplied (`keys_ofSupplies`).
-/

namespace AnalysisScheduler

namespace Deliveries

variable {w : Workspace} {ρ : Type}

theorem keys_receive (d : Deliveries w ρ) (source : Bear w) (results : List ρ) :
    (d.receive source results).byKind.keys = appendNew d.byKind.keys source.kindId :=
  OrderedMap.keys_insert ..

theorem get?_receive (d : Deliveries w ρ) (source : Bear w) (results : List ρ) (k : KindId w) :
    (d.receive source results).get? k =
      if k = source.kindId then
        let old := (d.get? k).getD ⟨source, []⟩
        some { old with results := old.results ++ results }
      else d.get? k := by
  refine (OrderedMap.get?_insert ..).trans ?_
  split
  · rename_i same
    rw [same]
  · rfl

theorem items_eq_flatMap_keys (d : Deliveries w ρ) :
    d.items = d.byKind.keys.flatMap fun k =>
      (d.get? k).toList.flatMap fun delivery => delivery.results.map (delivery.source, ·) :=
  d.byKind.flatMap_entries fun _ delivery => delivery.results.map (delivery.source, ·)

/-- What is received from bears, one after another. -/
def ofSupplies (supplies : List (Bear w × List ρ)) : Deliveries w ρ :=
  supplies.foldl (fun d supply => d.receive supply.1 supply.2) empty

theorem ofSupplies_append_singleton (supplies : List (Bear w × List ρ)) (source : Bear w)
    (results : List ρ) :
    ofSupplies (supplies ++ [(source, results)]) =
      (ofSupplies supplies).receive source results := by
  unfold ofSupplies
  rw [List.foldl_append]
  rfl

/-- What supplies put under a kind. -/
def delivery? (supplies : List (Bear w × List ρ)) (k : KindId w) : Option (Delivery w ρ) :=
  let mine := supplies.filter (·.1.kindId = k)
  mine.head?.map fun first => ⟨first.1, mine.flatMap Prod.snd⟩

theorem delivery?_append_singleton {supplies : List (Bear w × List ρ)} {source : Bear w}
    {results : List ρ} {k : KindId w} :
    delivery? (supplies ++ [(source, results)]) k =
      if k = source.kindId then
        let old := (delivery? supplies k).getD ⟨source, []⟩
        some { old with results := old.results ++ results }
      else delivery? supplies k := by
  unfold delivery?
  rw [List.filter_append]
  split
  · rename_i same
    rw [List.filter_cons_of_pos (by simpa using same.symm), List.filter_nil]
    cases supplies.filter (·.1.kindId = k) with
    | nil => simp
    | cons first rest => simp [List.flatMap_append]
  · rename_i other
    rw [List.filter_cons_of_neg (by simpa using fun same => other same.symm), List.filter_nil,
      List.append_nil]

theorem get?_ofSupplies (supplies : List (Bear w × List ρ)) (k : KindId w) :
    (ofSupplies supplies).get? k = delivery? supplies k := by
  induction supplies using List.reverseRecOn with
  | nil => rfl
  | append_singleton supplies supply ih =>
    obtain ⟨source, results⟩ := supply
    rw [ofSupplies_append_singleton, delivery?_append_singleton, ← ih, get?_receive]

theorem keys_ofSupplies (supplies : List (Bear w × List ρ)) :
    (ofSupplies supplies).byKind.keys = (supplies.map (·.1.kindId)).eraseDups := by
  rw [← foldl_appendNew_nil]
  induction supplies using List.reverseRecOn with
  | nil => rfl
  | append_singleton supplies supply ih =>
    obtain ⟨source, results⟩ := supply
    rw [ofSupplies_append_singleton, keys_receive, ih, List.map_append, List.foldl_append]
    rfl

end Deliveries

end AnalysisScheduler
