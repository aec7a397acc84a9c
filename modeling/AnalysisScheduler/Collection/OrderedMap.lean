/-!
# Maps that keep the order of their keys

A map is the list of its entries, no key twice. A new key goes to the end, a key that is written
again keeps its place, and a key that is erased leaves the order of the others as it was.

Each operation is described by what it does to `get?` and to `keys`.
-/

namespace AnalysisScheduler

/-- A finite map whose entries have an order. -/
structure OrderedMap (α : Type u) (β : Type v) where
  entries : List (α × β)
  distinct : (entries.map Prod.fst).Nodup
deriving DecidableEq, Repr

namespace OrderedMap

variable {α : Type u} {β : Type v}

/-- The map without entries. -/
def empty : OrderedMap α β := ⟨[], by simp⟩

instance : Inhabited (OrderedMap α β) := ⟨empty⟩

def keys (m : OrderedMap α β) : List α := m.entries.map Prod.fst

def values (m : OrderedMap α β) : List β := m.entries.map Prod.snd

def size (m : OrderedMap α β) : Nat := m.entries.length

def isEmpty (m : OrderedMap α β) : Bool := m.entries.isEmpty

/-- The map that takes each of the keys to its value under `f`. -/
def tabulate (keys : List α) (distinct : keys.Nodup) (f : α → β) : OrderedMap α β where
  entries := keys.map fun k => (k, f k)
  distinct := by simpa [List.map_map, Function.comp_def] using distinct

/-- The entries that `keep` changes to a new value, in their old order; the others are dropped. -/
def filterMap {γ : Type w} (m : OrderedMap α β) (keep : α → β → Option γ) : OrderedMap α γ where
  entries := m.entries.filterMap fun e => (keep e.1 e.2).map (e.1, ·)
  distinct := by
    have sub : ∀ es : List (α × β),
        ((es.filterMap fun e => (keep e.1 e.2).map (e.1, ·)).map Prod.fst).Sublist
          (es.map Prod.fst) := by
      intro es
      induction es with
      | nil => simp
      | cons e es ih =>
        rw [List.filterMap_cons]
        cases keep e.1 e.2 with
        | none => exact ih.cons _
        | some v => exact ih.cons_cons _
    exact (sub m.entries).nodup m.distinct

theorem nodup_keys (m : OrderedMap α β) : m.keys.Nodup := m.distinct

theorem mem_entries_filterMap {γ : Type w} {m : OrderedMap α β} {keep : α → β → Option γ}
    {e : α × γ} : e ∈ (m.filterMap keep).entries ↔
      ∃ v, (e.1, v) ∈ m.entries ∧ keep e.1 v = some e.2 := by
  simp only [filterMap, List.mem_filterMap, Option.map_eq_some_iff]
  constructor
  · rintro ⟨e', he', v, hv, rfl⟩
    exact ⟨e'.2, he', hv⟩
  · rintro ⟨v, hv, hk⟩
    exact ⟨(e.1, v), hv, e.2, hk, rfl⟩

variable [DecidableEq α]

/-- The value under a key. -/
def get? (m : OrderedMap α β) (k : α) : Option β := m.entries.lookup k

def contains (m : OrderedMap α β) (k : α) : Bool := (m.get? k).isSome

/-- Writes `v` under `k`: in the place that `k` has, and at the end if it has none. -/
def insert (m : OrderedMap α β) (k : α) (v : β) : OrderedMap α β :=
  if h : k ∈ m.keys then
    { entries := m.entries.map fun e => if e.1 = k then (k, v) else e
      distinct := by
        have same : (m.entries.map fun e => if e.1 = k then (k, v) else e).map Prod.fst =
            m.entries.map Prod.fst := by
          rw [List.map_map]
          apply List.map_congr_left
          intro e _
          by_cases he : e.1 = k <;> simp [he]
        rw [same]
        exact m.distinct }
  else
    { entries := m.entries ++ [(k, v)]
      distinct := by
        rw [List.map_append, List.nodup_append]
        refine ⟨m.distinct, by simp, ?_⟩
        intro a ha b hb hab
        have hbk : b = k := by simpa using hb
        exact h (by rw [← hbk, ← hab]; exact ha) }

/-- Takes a key out. -/
def erase (m : OrderedMap α β) (k : α) : OrderedMap α β :=
  m.filterMap fun k' v => if k' = k then none else some v

/-- The entries of a list, written one after another. -/
def ofList (es : List (α × β)) : OrderedMap α β :=
  es.foldl (fun m e => m.insert e.1 e.2) empty

/-- Whether two maps have the same entries, in whatever order. -/
def sameEntries [BEq β] (m n : OrderedMap α β) : Bool :=
  m.size == n.size && m.entries.all fun e => n.get? e.1 == some e.2

/-! ## What the operations do to the keys -/

theorem keys_insert_of_mem {m : OrderedMap α β} {k : α} (v : β) (h : k ∈ m.keys) :
    (m.insert k v).keys = m.keys := by
  unfold insert
  rw [dif_pos h]
  simp only [keys, List.map_map]
  apply List.map_congr_left
  intro e _
  by_cases he : e.1 = k <;> simp [he]

theorem keys_insert_of_not_mem {m : OrderedMap α β} {k : α} (v : β) (h : k ∉ m.keys) :
    (m.insert k v).keys = m.keys ++ [k] := by
  unfold insert
  rw [dif_neg h]
  simp [keys]

theorem mem_keys_insert {m : OrderedMap α β} {k k' : α} {v : β} :
    k' ∈ (m.insert k v).keys ↔ k' = k ∨ k' ∈ m.keys := by
  by_cases h : k ∈ m.keys
  · rw [keys_insert_of_mem v h]
    refine ⟨.inr, ?_⟩
    rintro (rfl | h')
    · exact h
    · exact h'
  · rw [keys_insert_of_not_mem v h]
    simp [or_comm]

theorem mem_entries_insert {m : OrderedMap α β} {k : α} {v : β} {e : α × β}
    (h : e ∈ (m.insert k v).entries) : e = (k, v) ∨ e ∈ m.entries := by
  unfold insert at h
  split at h
  · obtain ⟨e', he', rfl⟩ := List.mem_map.1 h
    by_cases hk : e'.1 = k
    · exact .inl (by simp [hk])
    · exact .inr (by simpa [hk] using he')
  · rcases List.mem_append.1 h with h | h
    · exact .inr h
    · exact .inl (by simpa using h)

/-! ## What the operations do to look-ups -/

theorem lookup_cons_eq (a : α) (b : β) (es : List (α × β)) (k : α) :
    ((a, b) :: es).lookup k = if k = a then some b else es.lookup k := by
  by_cases h : k = a
  · simp [h]
  · have : (k == a) = false := by simp [h]
    simp [List.lookup_cons, this, h]

theorem lookup_eq_none_iff {es : List (α × β)} {k : α} :
    es.lookup k = none ↔ k ∉ es.map Prod.fst := by
  induction es with
  | nil => simp
  | cons e es ih =>
    obtain ⟨a, b⟩ := e
    by_cases h : k = a
    · simp [h]
    · rw [lookup_cons_eq, if_neg h, ih]
      simp [h]

theorem get?_empty (k : α) : (empty : OrderedMap α β).get? k = none := rfl

theorem get?_eq_none_iff {m : OrderedMap α β} {k : α} : m.get? k = none ↔ k ∉ m.keys :=
  lookup_eq_none_iff

theorem mem_entries_of_get? {m : OrderedMap α β} {k : α} {v : β} (h : m.get? k = some v) :
    (k, v) ∈ m.entries := by
  unfold get? at h
  generalize m.entries = es at h ⊢
  induction es with
  | nil => cases h
  | cons e es ih =>
    obtain ⟨a, b⟩ := e
    rw [lookup_cons_eq] at h
    split at h
    · rename_i hk
      cases h
      exact hk ▸ List.mem_cons_self
    · exact List.mem_cons_of_mem _ (ih h)

theorem lookup_overwrite {es : List (α × β)} {k k' : α} {v : β} (h : k ∈ es.map Prod.fst) :
    (es.map fun e => if e.1 = k then (k, v) else e).lookup k' =
      if k' = k then some v else es.lookup k' := by
  induction es with
  | nil => simp at h
  | cons e es ih =>
    obtain ⟨a, b⟩ := e
    by_cases ha : a = k
    · subst ha
      by_cases hk : k' = a
      · simp [hk]
      · by_cases hm : a ∈ es.map Prod.fst
        · simpa [lookup_cons_eq, hk] using ih hm
        · have same : (es.map fun e => if e.1 = a then (a, v) else e) = es := by
            conv => rhs; rw [← List.map_id es]
            apply List.map_congr_left
            intro e he
            have : e.1 ≠ a := fun h => hm (h ▸ List.mem_map_of_mem he)
            simp [this]
          rw [List.map_cons, same]
          simp [lookup_cons_eq, hk]
    · have hm : k ∈ es.map Prod.fst := by
        rcases List.mem_cons.1 h with h | h
        · exact absurd h.symm ha
        · exact h
      by_cases hk : k' = a
      · subst hk
        simp [ha]
      · simpa [lookup_cons_eq, ha, hk] using ih hm

theorem lookup_append_of_not_mem {es : List (α × β)} {k k' : α} {v : β}
    (h : k ∉ es.map Prod.fst) :
    (es ++ [(k, v)]).lookup k' = if k' = k then some v else es.lookup k' := by
  induction es with
  | nil => by_cases hk : k' = k <;> simp [lookup_cons_eq, hk]
  | cons e es ih =>
    obtain ⟨a, b⟩ := e
    rw [List.map_cons, List.mem_cons, not_or] at h
    by_cases hk : k' = a
    · subst hk
      have : k' ≠ k := fun hh => h.1 hh.symm
      simp [this]
    · simpa [lookup_cons_eq, hk] using ih h.2

theorem get?_insert (m : OrderedMap α β) (k k' : α) (v : β) :
    (m.insert k v).get? k' = if k' = k then some v else m.get? k' := by
  unfold insert
  by_cases h : k ∈ m.keys
  · rw [dif_pos h]
    exact lookup_overwrite h
  · rw [dif_neg h]
    exact lookup_append_of_not_mem h

theorem get?_filterMap {γ : Type w} (m : OrderedMap α β) (keep : α → β → Option γ) (k : α) :
    (m.filterMap keep).get? k = (m.get? k).bind (keep k) := by
  have aux : ∀ es : List (α × β), (es.map Prod.fst).Nodup →
      (es.filterMap fun e => (keep e.1 e.2).map (e.1, ·)).lookup k =
        (es.lookup k).bind (keep k) := by
    intro es
    induction es with
    | nil => intro _; rfl
    | cons e es ih =>
      obtain ⟨a, b⟩ := e
      intro nd
      rw [List.map_cons, List.nodup_cons] at nd
      specialize ih nd.2
      rw [List.filterMap_cons]
      by_cases hk : k = a
      · subst hk
        rw [lookup_eq_none_iff.2 nd.1] at ih
        cases hkeep : keep k b with
        | none => simpa [lookup_cons_eq, hkeep] using ih
        | some v => simp [hkeep]
      · cases hkeep : keep a b with
        | none => simpa [lookup_cons_eq, hk, hkeep] using ih
        | some v => simpa [lookup_cons_eq, hk, hkeep] using ih
  exact aux m.entries m.distinct

theorem get?_erase (m : OrderedMap α β) (k k' : α) :
    (m.erase k).get? k' = if k' = k then none else m.get? k' := by
  unfold erase
  rw [get?_filterMap]
  by_cases h : k' = k <;> cases m.get? k' <;> simp [h]

/-! ## Order -/

example : (ofList [(2, "b"), (1, "a"), (2, "c")]).entries = [(2, "c"), (1, "a")] := by decide
example : ((ofList [(2, "b"), (1, "a"), (3, "c")]).erase 2).keys = [1, 3] := by decide

end OrderedMap

end AnalysisScheduler
