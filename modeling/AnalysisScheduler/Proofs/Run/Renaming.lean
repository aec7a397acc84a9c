import AnalysisScheduler.Proofs.Run.Deeds
import AnalysisScheduler.Proofs.Run.Stock

/-!
# Bears and tasks under other numbers

What happens in a run, told with other bears and other numbers of tasks. When each bear keeps its
kind and its site, renaming goes along with all that a session does with deliveries and tasks: what
is received under new names is what was received, renamed (`Deliveries.rename_ofSupplies`), and so
are the tasks that are made of it (`Bear.tasks_rename`).
-/

namespace AnalysisScheduler

namespace OrderedMap

variable {α : Type u} {β : Type v} {γ : Type w}

/-- The map with each value changed by `f`. -/
def mapValues (m : OrderedMap α β) (f : β → γ) : OrderedMap α γ where
  entries := m.entries.map fun e => (e.1, f e.2)
  distinct := by
    rw [List.map_map]
    exact m.distinct

theorem keys_mapValues (m : OrderedMap α β) (f : β → γ) : (m.mapValues f).keys = m.keys := by
  unfold keys mapValues
  rw [List.map_map]
  rfl

variable [DecidableEq α]

theorem get?_mapValues (m : OrderedMap α β) (f : β → γ) (k : α) :
    (m.mapValues f).get? k = (m.get? k).map f := by
  unfold get? mapValues
  dsimp only
  induction m.entries with
  | nil => rfl
  | cons e rest ih =>
    rw [List.map_cons, lookup_cons_eq, lookup_cons_eq, ih]
    split <;> rfl

/-- Maps with the same keys in the same order are the same if their look-ups are. -/
theorem ext_get? {m n : OrderedMap α β} (keys : m.keys = n.keys)
    (same : ∀ k, m.get? k = n.get? k) : m = n := by
  have entries : m.entries = n.entries := by
    refine List.ext_getElem (by simpa [OrderedMap.keys] using congrArg List.length keys)
      fun i h h' => ?_
    have key : m.entries[i].1 = n.entries[i].1 := by
      have := congrArg (·[i]?) keys
      simpa [OrderedMap.keys, h, h'] using this
    have left : m.get? m.entries[i].1 = some m.entries[i].2 :=
      get?_eq_some_iff.2 (List.getElem_mem h)
    have right : n.get? n.entries[i].1 = some n.entries[i].2 :=
      get?_eq_some_iff.2 (List.getElem_mem h')
    rw [key, same, right] at left
    exact Prod.ext key (Option.some.inj left).symm
  obtain ⟨entries, distinct⟩ := m
  subst entries
  rfl

end OrderedMap

variable {w : Workspace} {ρ : Type}

/-! ## Renaming -/

namespace Deliveries

/-- The same deliveries from other bears. -/
def rename (ren : Bear w → Bear w) (d : Deliveries w ρ) : Deliveries w ρ :=
  ⟨d.byKind.mapValues fun delivery => { delivery with source := ren delivery.source }⟩

theorem get?_rename (ren : Bear w → Bear w) (d : Deliveries w ρ) (k : KindId w) :
    (d.rename ren).get? k =
      (d.get? k).map fun delivery => { delivery with source := ren delivery.source } :=
  d.byKind.get?_mapValues _ k

theorem items_rename (ren : Bear w → Bear w) (d : Deliveries w ρ) :
    (d.rename ren).items = d.items.map fun i => (ren i.1, i.2) := by
  unfold items toList rename OrderedMap.mapValues
  rw [List.flatMap_map, List.map_flatMap]
  refine List.flatMap_congr fun e _ => ?_
  rw [List.map_map]
  rfl

theorem rename_receive {ren : Bear w → Bear w} (sameKind : ∀ b, (ren b).kindId = b.kindId)
    (d : Deliveries w ρ) (source : Bear w) (results : List ρ) :
    (d.receive source results).rename ren = (d.rename ren).receive (ren source) results := by
  refine congrArg Deliveries.mk (OrderedMap.ext_get? ?_ fun k => ?_)
  · rw [OrderedMap.keys_mapValues, keys_receive]
    refine Eq.trans ?_ (keys_receive (d.rename ren) (ren source) results).symm
    rw [sameKind, rename, OrderedMap.keys_mapValues]
  · refine (get?_rename ren (d.receive source results) k).trans
      (.trans ?_ (get?_receive (d.rename ren) (ren source) results k).symm)
    rw [get?_receive, get?_rename, sameKind]
    split
    · cases d.get? k <;> rfl
    · rfl

theorem rename_ofSupplies {ren : Bear w → Bear w} (sameKind : ∀ b, (ren b).kindId = b.kindId)
    (supplies : List (Bear w × List ρ)) :
    (ofSupplies supplies).rename ren =
      ofSupplies (supplies.map fun supply => (ren supply.1, supply.2)) := by
  induction supplies using List.reverseRecOn with
  | nil => rfl
  | append_singleton supplies supply ih =>
    obtain ⟨source, results⟩ := supply
    rw [ofSupplies_append_singleton, rename_receive sameKind, ih, List.map_append]
    exact (ofSupplies_append_singleton ..).symm

end Deliveries

def TaskInput.rename (ren : Bear w → Bear w) : TaskInput w ρ → TaskInput w ρ
  | corpus => corpus
  | file name lines => file name lines
  | delivery source result => delivery (ren source) result

def Task.rename (ren : Bear w → Bear w) (t : Task w ρ) : Task w ρ :=
  ⟨t.input.rename ren, t.options, t.deliveries.rename ren⟩

/-- The same task of another bear, under another number. -/
def Ticket.rename (ren : Bear w → Bear w) (number : Nat → Nat) (t : Ticket w ρ) : Ticket w ρ :=
  ⟨number t.id, ren t.bear, t.task.rename ren⟩

def Ending.rename (ren : Bear w → Bear w) (number : Nat → Nat) (e : Ending w ρ) : Ending w ρ :=
  ⟨e.ticket.rename ren number, e.outcome⟩

/-- The same deed of another bear; what a task ends with and what is offered stay as they are. -/
def Deed.rename (ren : Bear w → Bear w) (number : Nat → Nat) : Deed w ρ → Deed w ρ
  | asked b deliveries => asked (ren b) (deliveries.rename ren)
  | submitted t => submitted (t.rename ren number)
  | ended e => ended (e.rename ren number)
  | offered b r => offered (ren b) r

/-! ## Tasks -/

section Tasks

variable {ren : Bear w → Bear w} (sameKind : ∀ b, (ren b).kindId = b.kindId)
  (sameSite : ∀ b, (ren b).site = b.site)

include sameKind sameSite in
theorem Bear.options_rename (b : Bear w) : (ren b).options = b.options := by
  have options := (ren b).optionsOf_eq
  rw [sameKind, sameSite, b.optionsOf_eq] at options
  exact (Except.ok.inj options).symm

include sameKind sameSite in
/-- A bear under its new name makes the same tasks of the renamed deliveries. -/
theorem Bear.tasks_rename (b : Bear w) (d : Deliveries w ρ) :
    (ren b).tasks (d.rename ren) = (b.tasks d).map (Task.rename ren) := by
  have shape : (ren b).kind.shape = b.kind.shape :=
    congrArg (fun k => (w.kind k).shape) (sameKind b)
  have corpus : (ren b).corpus = b.corpus := congrArg w.corpusOf (sameSite b)
  have inputs : TaskInput.all (ren b).kind.shape (ren b).corpus (d.rename ren) =
      (TaskInput.all b.kind.shape b.corpus d).map (TaskInput.rename ren) := by
    rw [shape, corpus]
    cases b.kind.shape with
    | corpus => rfl
    | file =>
      unfold TaskInput.all
      rw [List.map_map]
      rfl
    | delivery =>
      unfold TaskInput.all
      rw [d.items_rename, List.map_map, List.map_map]
      rfl
  unfold Bear.tasks
  rw [inputs, options_rename sameKind sameSite, List.map_map, List.map_map]
  rfl

end Tasks

end AnalysisScheduler
