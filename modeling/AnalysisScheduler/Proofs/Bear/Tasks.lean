import AnalysisScheduler.Bear.Analysis
import AnalysisScheduler.Proofs.Bear.Deliveries

/-!
# The tasks of a bear

The tasks that a bear gets leave nothing out and do nothing twice (`tasks_cover_inputs`): there is
one for the corpus, or one for each name of a file, with the lines that were given last for it
(`Corpus.toList_ofList`), or one for each result that was delivered (`items_ofSupplies_perm`). All
of them are of the shape of the bear, so it can execute its own tasks (`Bear.execute_of_shape`);
only a task of another shape is a fault (`Bear.execute_of_other_shape`).
-/

namespace AnalysisScheduler

/-! ## Files -/

namespace Corpus

/-- The lines that a list of files gives last for a name. -/
def lastLines (files : List (String × List String)) (name : String) : List String :=
  (files.reverse.lookup name).getD []

/-- Each name stands where it was first given. -/
theorem toList_ofList (files : List (String × List String)) :
    (ofList files).toList =
      (files.map Prod.fst).eraseDups.map fun name => (name, lastLines files name) := by
  refine (OrderedMap.entries_eq_map_keys _ []).trans ?_
  rw [ofList, OrderedMap.keys_ofList]
  refine List.map_congr_left fun name _ => ?_
  rw [OrderedMap.get?_ofList]
  rfl

end Corpus

variable {w : Workspace} {ρ : Type}

/-! ## Deliveries -/

namespace Deliveries

theorem items_ofSupplies (supplies : List (Bear w × List ρ)) :
    (ofSupplies supplies).items = (supplies.map (·.1.kindId)).eraseDups.flatMap fun k =>
      (delivery? supplies k).toList.flatMap fun d => d.results.map (d.source, ·) := by
  rw [items_eq_flatMap_keys, keys_ofSupplies]
  refine List.flatMap_congr fun k _ => ?_
  rw [get?_ofSupplies]

/-- Nothing that is delivered is lost and nothing comes twice. -/
theorem items_ofSupplies_perm (supplies : List (Bear w × List ρ)) :
    ((ofSupplies supplies).items.map Prod.snd).Perm (supplies.flatMap Prod.snd) := by
  have own (k : KindId w) :
      ((delivery? supplies k).toList.flatMap fun d => d.results.map (d.source, ·)).map Prod.snd =
        (supplies.filter (·.1.kindId = k)).flatMap Prod.snd := by
    unfold delivery?
    cases supplies.filter (·.1.kindId = k) with
    | nil => rfl
    | cons first rest => simp [Function.comp_def]
  have covered : ∀ supply ∈ supplies, supply.1.kindId ∈ (supplies.map (·.1.kindId)).eraseDups :=
    fun supply mem => List.mem_eraseDups.2 (List.mem_map_of_mem (f := (·.1.kindId)) mem)
  have grouped := (flatMap_filter_perm (nodup_eraseDups _) covered).flatMap_right Prod.snd
  rw [items_ofSupplies, List.map_flatMap, List.flatMap_congr fun k _ => own k]
  rwa [List.flatMap_assoc] at grouped

theorem total_eq_length (d : Deliveries w ρ) :
    d.total = (d.byKind.values.flatMap (·.results)).length := by
  unfold total items toList OrderedMap.values
  rw [List.flatMap_map, ← List.length_map Prod.snd, List.map_flatMap]
  simp [Function.comp_def]

end Deliveries

/-! ## Tasks -/

/-- The shape that asks for an input. -/
def TaskInput.shape : TaskInput w ρ → Shape
  | .corpus => .corpus
  | .file .. => .file
  | .delivery .. => .delivery

theorem TaskInput.shape_of_mem_all {shape : Shape} {corpus : Corpus} {deliveries : Deliveries w ρ}
    {input : TaskInput w ρ} (mem : input ∈ all shape corpus deliveries) : input.shape = shape := by
  cases shape with
  | corpus =>
    rw [List.mem_singleton.1 mem]
    rfl
  | file =>
    obtain ⟨_, _, rfl⟩ := List.mem_map.1 mem
    rfl
  | delivery =>
    obtain ⟨_, _, rfl⟩ := List.mem_map.1 mem
    rfl

/-- What the code of a kind makes of an input. -/
def Analysis.perform (analysis : Analysis w ρ) (corpus : Corpus) (context : AnalysisContext w ρ) :
    TaskInput w ρ → Work ρ
  | .corpus => analysis.corpus corpus context
  | .file name lines => analysis.file name lines context
  | .delivery source result => analysis.delivery source result context

variable {analyses : KindId w → Analysis w ρ} {b : Bear w} {deliveries : Deliveries w ρ}
  {task : Task w ρ}

/-- A bear is never at a loss with a task of its own shape. -/
theorem Bear.execute_of_shape (own : task.input.shape = b.kind.shape) :
    b.execute analyses task =
      (analyses b.kindId).perform b.corpus ⟨b.scope, task.options, task.deliveries⟩ task.input := by
  unfold execute
  rw [← own]
  cases task.input <;> rfl

/-- A task of another shape is a fault of the bear. -/
theorem Bear.execute_of_other_shape (other : task.input.shape ≠ b.kind.shape) :
    b.execute analyses task = .failed (b.mismatch task.input) := by
  unfold execute
  cases shape : b.kind.shape <;> cases input : task.input <;>
    first | rfl | exact absurd (by rw [shape, input]; rfl) other

theorem Bear.map_input_tasks :
    (b.tasks deliveries).map (·.input) = TaskInput.all b.kind.shape b.corpus deliveries := by
  unfold tasks
  rw [List.map_map]
  exact List.map_id _

theorem Bear.execute_of_mem_tasks (mem : task ∈ b.tasks deliveries) :
    task.options = b.options ∧ task.deliveries = deliveries ∧
      b.execute analyses task =
        (analyses b.kindId).perform b.corpus ⟨b.scope, b.options, deliveries⟩ task.input := by
  obtain ⟨input, asked, rfl⟩ := List.mem_map.1 mem
  exact ⟨rfl, rfl, execute_of_shape (TaskInput.shape_of_mem_all asked)⟩

/-- Whatever the corpus was made of and whatever was delivered, the tasks of a bear are these: one
for the corpus; or one for each name of a file in the order in which the names came first, with its
last lines; or one for each result that was delivered, kind by kind in the order in which the kinds
came first, with the first bear of the kind that delivered. Each task has the options of the bear
and all deliveries, and the bear executes it by the code of its kind. -/
theorem tasks_cover_inputs (analyses : KindId w → Analysis w ρ) (b : Bear w)
    (files : List (String × List String)) (built : b.corpus = .ofList files)
    (feed : List (Bear w × List ρ)) :
    let deliveries := Deliveries.ofSupplies feed
    let tasks := b.tasks deliveries
    let inputs := tasks.map (·.input)
    (∀ task ∈ tasks, task.options = b.options ∧ task.deliveries = deliveries ∧
      b.execute analyses task =
        (analyses b.kindId).perform b.corpus ⟨b.scope, b.options, deliveries⟩ task.input) ∧
    (match b.kind.shape with
      | .corpus => inputs = [.corpus]
      | .file => inputs = (files.map Prod.fst).eraseDups.map fun name =>
          .file name (Corpus.lastLines files name)
      | .delivery => tasks.length = deliveries.total ∧
          inputs = (feed.map (·.1.kindId)).eraseDups.flatMap fun k =>
            (Deliveries.delivery? feed k).toList.flatMap fun d =>
              d.results.map (.delivery d.source ·)) ∧
    deliveries.total = (deliveries.byKind.values.flatMap (·.results)).length ∧
    (deliveries.items.map Prod.snd).Perm (feed.flatMap Prod.snd) := by
  intro deliveries tasks inputs
  have all : inputs = TaskInput.all b.kind.shape b.corpus deliveries := Bear.map_input_tasks
  refine ⟨fun task mem => Bear.execute_of_mem_tasks mem, ?_, deliveries.total_eq_length,
    Deliveries.items_ofSupplies_perm feed⟩
  cases shape : b.kind.shape with
  | corpus => exact all.trans (by rw [shape]; rfl)
  | file =>
    rw [all, shape, TaskInput.all, built, Corpus.toList_ofList, List.map_map]
    rfl
  | delivery =>
    have length : inputs.length = tasks.length := List.length_map _
    rw [all, shape, TaskInput.all] at length ⊢
    refine ⟨length.symm.trans (List.length_map _), ?_⟩
    rw [Deliveries.items_ofSupplies, List.map_flatMap]
    refine List.flatMap_congr fun k _ => ?_
    rw [List.map_flatMap]
    refine List.flatMap_congr fun d _ => ?_
    rw [List.map_map]
    rfl

namespace Desk

/-- A kind with a task for each file, and one with a task for each result. -/
def workspace : Workspace where
  kindCount := 2
  kinds := #v[⟨"Lines", .file, [], .empty⟩, ⟨"Report", .delivery, [⟨0, Nat.two_pos⟩], .empty⟩]
  sections := #[.new "all"]
  corpora := #[.ofList [("a", ["old"]), ("b", []), ("a", ["new"])]]

def site : Site workspace := ⟨⟨0, by decide⟩, ⟨0, by decide⟩⟩

def lines : Bear workspace := ⟨0, ⟨0, by decide⟩, site, by decide +kernel⟩

def others : Bear workspace := ⟨1, ⟨0, by decide⟩, site, by decide +kernel⟩

def report : Bear workspace := ⟨2, ⟨1, by decide⟩, site, by decide +kernel⟩

/-- Nothing comes first, and two bears of one kind deliver. -/
def feed : List (Bear workspace × List Nat) :=
  [(report, []), (lines, []), (others, [1]), (report, [2]), (lines, [3])]

def silent (_ : KindId workspace) : Analysis workspace Nat :=
  ⟨fun _ _ => .done [], fun _ _ _ => .done [], fun _ _ _ => .done []⟩

end Desk

theorem tasks_cover_inputs_of_desk :
    (Desk.lines.tasks (.ofSupplies Desk.feed)).map (·.input) =
        [.file "a" ["new"], .file "b" []] ∧
      (Desk.report.tasks (.ofSupplies Desk.feed)).map (·.input) =
        [.delivery Desk.report 2, .delivery Desk.lines 1, .delivery Desk.lines 3] := by
  have files := (tasks_cover_inputs Desk.silent Desk.lines _ rfl Desk.feed).2.1
  have deliveries := (tasks_cover_inputs Desk.silent Desk.report _ rfl Desk.feed).2.1
  exact ⟨files.trans rfl, deliveries.2.trans rfl⟩

end AnalysisScheduler
