import AnalysisScheduler.Proofs.Roster.Part
import AnalysisScheduler.Proofs.Run.Invariant
import AnalysisScheduler.Proofs.Run.Renaming

/-!
# What is seen of a run at one site

A view looks at one site and has names of its own for the bears and the tasks there. Of a list of
bears, tasks, endings or deeds it sees those of the site, in order and under the new names
(`View.see`). The tasks of the site are numbered on their own when their new numbers count them in
the order of their submission (`View.Numbers`).

What the bears of a site have received is seen to come from the endings that are seen, since no bear
waits on one of another site (`View.received_eq`).
-/

namespace AnalysisScheduler

variable {w : Workspace} {ρ : Type}

/-- Things that belong to a bear and that can be told under other names. -/
class Owned (w : Workspace) (α : Type) where
  owner : α → Bear w
  rename : (Bear w → Bear w) → (Nat → Nat) → α → α

instance : Owned w (Bear w) := ⟨id, fun ren _ => ren⟩

instance : Owned w (Ticket w ρ) := ⟨Ticket.bear, Ticket.rename⟩

instance : Owned w (Ending w ρ) := ⟨(·.ticket.bear), Ending.rename⟩

instance : Owned w (Deed w ρ) := ⟨Deed.bear, Deed.rename⟩

instance : Owned w (Bear w × ρ) := ⟨Prod.fst, fun ren _ offer => (ren offer.1, offer.2)⟩

/-- A site, and the names under which its bears and its tasks are known. -/
structure View (w : Workspace) where
  site : Site w
  ren : Bear w → Bear w
  number : Nat → Nat

namespace View

/-- What is seen of a list: what belongs to bears of the site, under the new names. -/
def see {α : Type} [Owned w α] (v : View w) (l : List α) : List α :=
  (l.filter fun a => (Owned.owner a : Bear w).site = v.site).map (Owned.rename v.ren v.number)

section See

variable {α : Type} [Owned w α] {v : View w}

theorem see_append (l more : List α) : v.see (l ++ more) = v.see l ++ v.see more := by
  unfold see
  rw [List.filter_append, List.map_append]

theorem see_eq_map {l : List α} (here : ∀ a ∈ l, (Owned.owner a : Bear w).site = v.site) :
    v.see l = l.map (Owned.rename v.ren v.number) := by
  unfold see
  rw [List.filter_eq_self.2 fun a mem => decide_eq_true (here a mem)]

theorem see_eq_nil {l : List α} (elsewhere : ∀ a ∈ l, (Owned.owner a : Bear w).site ≠ v.site) :
    v.see l = [] := by
  unfold see
  rw [List.filter_eq_nil_iff.2 fun a mem same => elsewhere a mem (of_decide_eq_true same)]
  rfl

theorem see_cons_here {a : α} (here : (Owned.owner a : Bear w).site = v.site) (l : List α) :
    v.see (a :: l) = Owned.rename v.ren v.number a :: v.see l := by
  unfold see
  rw [List.filter_cons, if_pos (decide_eq_true here), List.map_cons]

theorem see_cons_elsewhere {a : α} (elsewhere : (Owned.owner a : Bear w).site ≠ v.site)
    (l : List α) : v.see (a :: l) = v.see l := by
  unfold see
  rw [List.filter_cons, if_neg fun same => elsewhere (of_decide_eq_true same)]

theorem mem_see_iff {l : List α} {x : α} :
    x ∈ v.see l ↔
      ∃ a ∈ l, (Owned.owner a : Bear w).site = v.site ∧ Owned.rename v.ren v.number a = x := by
  unfold see
  simp only [List.mem_map, List.mem_filter, decide_eq_true_eq, and_assoc]

end See

theorem see_bear_here {v : View w} {b : Bear w} (here : b.site = v.site) (bs : List (Bear w)) :
    v.see (b :: bs) = v.ren b :: v.see bs := see_cons_here here bs

theorem see_bear_elsewhere {v : View w} {b : Bear w} (elsewhere : b.site ≠ v.site)
    (bs : List (Bear w)) : v.see (b :: bs) = v.see bs := see_cons_elsewhere elsewhere bs

/-- What is picked out of the deeds that are seen is what is seen of what is picked out. -/
theorem filterMap_see {α : Type} [Owned w α] {v : View w} {pick : Deed w ρ → Option α}
    (owner : ∀ d a, pick d = some a → Owned.owner a = d.bear)
    (rename : ∀ d, pick (d.rename v.ren v.number) = (pick d).map (Owned.rename v.ren v.number))
    (ds : List (Deed w ρ)) : (v.see ds).filterMap pick = v.see (ds.filterMap pick) := by
  induction ds with
  | nil => rfl
  | cons d rest ih =>
    by_cases here : d.bear.site = v.site
    · have seen : pick (Owned.rename v.ren v.number d) = _ := rename d
      rw [see_cons_here here, List.filterMap_cons, seen, ih, List.filterMap_cons]
      cases picked : pick d with
      | none => rfl
      | some a => exact (see_cons_here ((owner d a picked).symm ▸ here) _).symm
    · rw [see_cons_elsewhere here, ih, List.filterMap_cons]
      cases picked : pick d with
      | none => rfl
      | some a => exact (see_cons_elsewhere ((owner d a picked).symm ▸ here) _).symm

theorem filterMap_submitted?_see (v : View w) (ds : List (Deed w ρ)) :
    (v.see ds).filterMap Deed.submitted? = v.see (ds.filterMap Deed.submitted?) := by
  refine filterMap_see (fun d t picked => ?_) (fun d => by cases d <;> rfl) ds
  cases d with
  | submitted t' =>
    cases picked
    rfl
  | _ => cases picked

theorem filterMap_offer?_see (v : View w) (ds : List (Deed w ρ)) :
    (v.see ds).filterMap Deed.offer? = v.see (ds.filterMap Deed.offer?) := by
  refine filterMap_see (fun d offer picked => ?_) (fun d => by cases d <;> rfl) ds
  cases d with
  | offered b result =>
    cases picked
    rfl
  | _ => cases picked

/-! ## Numbers of tasks -/

/-- The new numbers count the tasks of the site in the order of their submission. -/
def Numbers (v : View w) (h : List (Event w ρ)) : Prop :=
  (v.see (History.submitted h)).map Ticket.id = List.range (v.see (History.submitted h)).length

theorem Numbers.of_prefix {v : View w} {h h' : List (Event w ρ)} (numbers : v.Numbers h')
    (earlier : h <+: h') : v.Numbers h := by
  obtain ⟨more, rfl⟩ := earlier
  unfold Numbers at numbers
  rw [History.submitted_append, see_append, List.map_append, List.length_append] at numbers
  have begun := congrArg (List.take (v.see (History.submitted h)).length) numbers
  rwa [List.take_left' (List.length_map _), List.take_range,
    Nat.min_eq_left (Nat.le_add_right ..)] at begun

/-- The new numbers tell the tasks of the site apart. -/
theorem Numbers.injective {v : View w} {h : List (Event w ρ)} (numbers : v.Numbers h)
    {t u : Ticket w ρ} (first : t ∈ History.submitted h) (here : t.bear.site = v.site)
    (second : u ∈ History.submitted h) (there : u.bear.site = v.site)
    (same : v.number t.id = v.number u.id) : t = u := by
  have nodup : ((v.see (History.submitted h)).map Ticket.id).Nodup :=
    numbers ▸ List.nodup_range
  unfold see at nodup
  rw [List.map_map] at nodup
  exact List.inj_on_of_nodup_map nodup (List.mem_filter.2 ⟨first, decide_eq_true here⟩)
    (List.mem_filter.2 ⟨second, decide_eq_true there⟩) same

/-- There are always such numbers. -/
theorem exists_numbers (site : Site w) (ren : Bear w → Bear w) {h : List (Event w ρ)}
    (nodup : ((History.submitted h).map Ticket.id).Nodup) :
    ∃ number, Numbers ⟨site, ren, number⟩ h := by
  have ids : (((History.submitted h).filter (·.bear.site = site)).map Ticket.id).Nodup :=
    (List.filter_sublist.map _).nodup nodup
  -- A task gets its place among those of the site.
  refine ⟨(((History.submitted h).filter (·.bear.site = site)).map Ticket.id).idxOf, ?_⟩
  unfold Numbers see
  rw [List.length_map]
  change List.map _ (List.map _ ((History.submitted h).filter (·.bear.site = site))) =
    List.range ((History.submitted h).filter (·.bear.site = site)).length
  generalize (History.submitted h).filter (·.bear.site = site) = ts at ids
  refine List.ext_getElem (by simp) fun i left right => ?_
  have here : i < (ts.map Ticket.id).length := by simpa using right
  have place : (ts.map Ticket.id).idxOf (ts.map Ticket.id)[i] = i := ids.idxOf_getElem i here
  simpa [Owned.rename, Ticket.rename] using place

/-! ## What is received -/

section Received

variable {v : View w} {r r' : Roster w} (part : r.IsPart v.site v.ren r')

include part in
theorem supplies_eq {done : List (Ending w ρ)} (known : ∀ e ∈ done, e.ticket.bear ∈ r.bears)
    {b : Bear w} (mem : b ∈ r.bears.filter (·.site = v.site)) :
    r'.supplies (v.see done) (v.ren b) =
      (r.supplies done b).map fun supply => (v.ren supply.1, supply.2) := by
  unfold Roster.supplies see
  rw [List.filterMap_filter, List.filterMap_filter, List.filterMap_map, List.filterMap_filter,
    List.map_filterMap]
  refine List.filterMap_congr fun e ended => ?_
  simp only [decide_eq_true_eq, Function.comp_apply]
  show (if e.ticket.bear.site = v.site then
      if r'.graph.Edge (v.ren e.ticket.bear) (v.ren b) then
        e.results?.map (v.ren e.ticket.bear, ·) else none
      else none) =
    (if r.graph.Edge e.ticket.bear b then e.results?.map (e.ticket.bear, ·) else none).map
      fun supply => (v.ren supply.1, supply.2)
  split
  · rename_i here
    have inside : e.ticket.bear ∈ r.bears.filter (·.site = v.site) :=
      List.mem_filter.2 ⟨known e ended, decide_eq_true here⟩
    simp only [part.graph.edge_iff inside mem]
    split
    · cases e.results? <;> rfl
    · rfl
  · rename_i elsewhere
    -- An ending that is not seen does not matter to `b` either.
    have apart : ¬ r.graph.Edge e.ticket.bear b := fun edge =>
      elsewhere (of_decide_eq_true (List.mem_filter.1 (part.graph.closed b mem _ (.inr edge))).2)
    rw [if_neg apart]
    rfl

include part in
/-- The bears of the site have received what the endings there have brought. -/
theorem received_eq {done : List (Ending w ρ)} (known : ∀ e ∈ done, e.ticket.bear ∈ r.bears)
    {b : Bear w} (mem : b ∈ r.bears.filter (·.site = v.site)) :
    r'.received (v.see done) (v.ren b) = (r.received done b).rename v.ren := by
  unfold Roster.received
  rw [supplies_eq part known mem, Deliveries.rename_ofSupplies part.sameKind]

end Received

end View

end AnalysisScheduler
