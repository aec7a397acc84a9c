import AnalysisScheduler.Collection.OrderedMap
import AnalysisScheduler.Proofs.Collection.Distinct
import Mathlib.Data.List.Induction
import Mathlib.Data.List.Nodup

/-!
# Maps as relations

A map read through its look-ups: which entries, keys and values it has (`get?_eq_some_iff`,
`mem_keys_iff`, `mem_values_iff`), what a list of entries makes of it (`keys_ofList`, `get?_ofList`,
`ofList_entries`), what its entries give key by key (`flatMap_entries`), and what is left after a
key was erased.
-/

namespace AnalysisScheduler

namespace OrderedMap

variable {α : Type u} {β : Type v} [DecidableEq α] {m : OrderedMap α β}

theorem get?_eq_some_iff {k : α} {v : β} : m.get? k = some v ↔ (k, v) ∈ m.entries := by
  refine ⟨mem_entries_of_get?, fun mem => ?_⟩
  have key : k ∈ m.keys := List.mem_map_of_mem mem
  cases h : m.get? k with
  | none => exact absurd key (get?_eq_none_iff.1 h)
  | some v' =>
    have same := List.inj_on_of_nodup_map m.distinct mem (mem_entries_of_get? h) rfl
    rw [(Prod.mk.inj same).2]

theorem mem_keys_iff {k : α} : k ∈ m.keys ↔ ∃ v, m.get? k = some v := by
  rw [← not_iff_not, ← get?_eq_none_iff, not_exists, Option.eq_none_iff_forall_ne_some]

theorem mem_values_iff {v : β} : v ∈ m.values ↔ ∃ k, m.get? k = some v := by
  constructor
  · intro mem
    obtain ⟨⟨k, v'⟩, entry, rfl⟩ := List.mem_map.1 mem
    exact ⟨k, get?_eq_some_iff.2 entry⟩
  · rintro ⟨k, found⟩
    exact List.mem_map_of_mem (f := Prod.snd) (get?_eq_some_iff.1 found)

theorem contains_iff {k : α} : m.contains k = true ↔ k ∈ m.keys := by
  rw [mem_keys_iff, contains, Option.isSome_iff_exists]

theorem get?_tabulate {keys : List α} (distinct : keys.Nodup) (f : α → β) {k : α}
    (mem : k ∈ keys) : (tabulate keys distinct f).get? k = some (f k) :=
  get?_eq_some_iff.2 (List.mem_map_of_mem (f := fun k => (k, f k)) mem)

theorem keys_insert (m : OrderedMap α β) (k : α) (v : β) :
    (m.insert k v).keys = appendNew m.keys k := by
  unfold appendNew
  split
  · exact keys_insert_of_mem v ‹_›
  · exact keys_insert_of_not_mem v ‹_›

theorem entries_insert_of_not_mem (m : OrderedMap α β) {k : α} (v : β) (new : k ∉ m.keys) :
    (m.insert k v).entries = m.entries ++ [(k, v)] := by
  rw [insert, dif_neg new]

theorem keys_ofList (es : List (α × β)) : (ofList es).keys = (es.map Prod.fst).eraseDups := by
  rw [← foldl_appendNew_nil]
  unfold ofList
  induction es using List.reverseRecOn with
  | nil => rfl
  | append_singleton es e ih =>
    rw [List.foldl_concat, keys_insert, ih, List.map_append, List.map_singleton, List.foldl_concat]

/-- What is given last for a key is kept. -/
theorem get?_ofList (es : List (α × β)) (k : α) : (ofList es).get? k = es.reverse.lookup k := by
  unfold ofList
  induction es using List.reverseRecOn with
  | nil => rfl
  | append_singleton es e ih =>
    rw [List.foldl_concat, get?_insert, ih, List.reverse_concat, lookup_cons_eq]

/-- An assignment that is looked up from the end is the last one. -/
theorem lookup_reverse (es : List (α × β)) (k : α) :
    es.reverse.lookup k = (es.filter (·.1 = k)).getLast?.map Prod.snd := by
  induction es using List.reverseRecOn with
  | nil => rfl
  | append_singleton es e ih =>
    rw [List.reverse_concat, lookup_cons_eq, ih, List.filter_append]
    by_cases here : k = e.1
    · simp [here]
    · simp [here, Ne.symm here]

theorem entries_ofList {es : List (α × β)} (distinct : (es.map Prod.fst).Nodup) :
    (ofList es).entries = es := by
  induction es using List.reverseRecOn with
  | nil => rfl
  | append_singleton es e ih =>
    rw [List.map_append, List.nodup_append] at distinct
    have earlier := ih distinct.1
    have new : e.1 ∉ (ofList es).keys := by
      unfold OrderedMap.keys
      rw [earlier]
      exact fun old => distinct.2.2 _ old _ List.mem_cons_self rfl
    unfold ofList at earlier new ⊢
    rw [List.foldl_concat, entries_insert_of_not_mem _ _ new, earlier]

/-- A map is rebuilt from its entries. -/
theorem ofList_entries (m : OrderedMap α β) : ofList m.entries = m := by
  have same := entries_ofList m.distinct
  cases h : ofList m.entries
  cases m
  rw [h] at same
  subst same
  rfl

theorem sameEntries_self [BEq β] [ReflBEq β] (m : OrderedMap α β) : m.sameEntries m = true := by
  rw [sameEntries, beq_self_eq_true, Bool.true_and, List.all_eq_true]
  intro e mem
  rw [get?_eq_some_iff.2 mem]
  exact beq_self_eq_true _

theorem mem_keys_erase {k k' : α} : k' ∈ (m.erase k).keys ↔ k' ≠ k ∧ k' ∈ m.keys := by
  simp only [mem_keys_iff, get?_erase]
  by_cases h : k' = k <;> simp [h]

theorem entries_eq_map_keys (m : OrderedMap α β) (other : β) :
    m.entries = m.keys.map fun k => (k, (m.get? k).getD other) := by
  unfold OrderedMap.keys
  rw [List.map_map]
  refine (List.map_id _).symm.trans (List.map_congr_left fun e mem => ?_)
  have found : m.get? e.1 = some e.2 := get?_eq_some_iff.2 mem
  rw [Function.comp_apply, found]
  rfl

/-- What the entries give, key by key. -/
theorem flatMap_entries {γ : Type w} (m : OrderedMap α β) (f : α → β → List γ) :
    m.entries.flatMap (fun e => f e.1 e.2) =
      m.keys.flatMap fun k => (m.get? k).toList.flatMap (f k) := by
  unfold OrderedMap.keys
  rw [List.flatMap_map]
  refine List.flatMap_congr fun e mem => ?_
  have found : m.get? e.1 = some e.2 := get?_eq_some_iff.2 mem
  rw [found, Option.toList_some, List.flatMap_singleton]

theorem keys_filterMap {γ : Type w} (m : OrderedMap α β) (keep : α → β → Option γ) :
    (m.filterMap keep).keys = m.keys.filter fun k => ((m.get? k).bind (keep k)).isSome := by
  unfold OrderedMap.keys filterMap
  rw [List.map_filterMap, List.filter_map, ← List.filterMap_eq_filter, List.map_filterMap]
  refine List.filterMap_congr fun e mem => ?_
  have found : m.get? e.1 = some e.2 := get?_eq_some_iff.2 mem
  cases kept : keep e.1 e.2 <;> simp [Option.guard, found, kept]

omit [DecidableEq α] in
theorem filterMap_filterMap {γ : Type w} {δ : Type x} (m : OrderedMap α β) (f : α → β → Option γ)
    (g : α → γ → Option δ) :
    (m.filterMap f).filterMap g = m.filterMap fun k v => (f k v).bind (g k) := by
  unfold filterMap
  simp only [List.filterMap_filterMap]
  congr 1
  refine List.filterMap_congr fun e _ => ?_
  rw [Option.bind_map, Option.map_bind]
  rfl

omit [DecidableEq α] in
/-- Only what becomes of the entries matters. -/
theorem filterMap_congr {γ : Type w} {f g : α → β → Option γ}
    (same : ∀ k v, (k, v) ∈ m.entries → f k v = g k v) : m.filterMap f = m.filterMap g := by
  unfold filterMap
  congr 1
  exact List.filterMap_congr fun e mem => by rw [same e.1 e.2 mem]

omit [DecidableEq α] in
theorem filterMap_some (m : OrderedMap α β) : m.filterMap (fun _ v => some v) = m := by
  unfold filterMap
  congr 1
  exact List.filterMap_some

omit [DecidableEq α] in
theorem eq_empty (none : ∀ k, k ∉ m.keys) : m = empty := by
  obtain ⟨entries, distinct⟩ := m
  cases entries with
  | nil => rfl
  | cons e rest => exact absurd List.mem_cons_self (none e.1)

/-- Values that know their keys list them. -/
theorem map_values {key : β → α} (known : ∀ k v, m.get? k = some v → key v = k) :
    m.values.map key = m.keys := by
  unfold values OrderedMap.keys
  rw [List.map_map]
  exact List.map_congr_left fun e mem => known e.1 e.2 (get?_eq_some_iff.2 mem)

theorem nodup_values {key : β → α} (known : ∀ k v, m.get? k = some v → key v = k) :
    m.values.Nodup :=
  List.Nodup.of_map key (map_values known ▸ m.distinct)

end OrderedMap

end AnalysisScheduler
