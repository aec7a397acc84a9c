import AnalysisScheduler.Proofs.Collection.OrderedMap
import AnalysisScheduler.Proofs.Text.Lowercase
import AnalysisScheduler.Settings.Section

/-!
# Sections hold the last value of each name

What a section holds after any writes: each name in its normal form, where it was first written,
with the value that was written last (`Section.settings_written`). The normal form is the name
without the blanks around it and in small letters, and it is normal itself
(`Section.lower_trim_lower_trim`), so a section is rebuilt from what it lists
(`Section.written_toList`).
-/

namespace AnalysisScheduler

namespace Section

/-! ## Normal forms -/

theorem toList_normalise (name : String) :
    (normalise name).toList = Text.lower (Text.trim name.toList) := String.toList_ofList

theorem normalise_eq_iff {name name' : String} : normalise name = normalise name' ↔
    Text.lower (Text.trim name.toList) = Text.lower (Text.trim name'.toList) := by
  rw [← String.toList_inj, toList_normalise, toList_normalise]

/-- A normal form is its own normal form. -/
theorem lower_trim_lower_trim (cs : List Char) :
    Text.lower (Text.trim (Text.lower (Text.trim cs))) = Text.lower (Text.trim cs) := by
  rw [Text.trim_lower, Text.trim_trim, Text.lower_lower]

/-! ## Writes -/

/-- The section that writes make of an empty one. -/
def written (name : String) (writes : List (String × String)) : Section := (new name).setAll writes

/-- What is written last under a normal form. -/
def lastWritten? (writes : List (String × String)) (form : List Char) : Option String :=
  (writes.filter fun w => Text.lower (Text.trim w.1.toList) = form).getLast?.map Prod.snd

/-- The normal forms that are written, each where it is written first. -/
def forms (writes : List (String × String)) : List (List Char) :=
  (writes.map fun w => Text.lower (Text.trim w.1.toList)).eraseDups

theorem settings_written (name : String) (writes : List (String × String)) :
    written name writes = ⟨name, .ofList (writes.map fun w => (normalise w.1, w.2))⟩ := by
  unfold written
  induction writes using List.reverseRecOn with
  | nil => rfl
  | append_singleton writes w ih =>
    unfold setAll OrderedMap.ofList at ih ⊢
    rw [List.foldl_concat, ih, List.map_append, List.map_singleton, List.foldl_concat]
    rfl

theorem get?_written (name : String) (writes : List (String × String)) (key : String) :
    (written name writes).get? key =
      lastWritten? writes (Text.lower (Text.trim key.toList)) := by
  rw [settings_written, get?, OrderedMap.get?_ofList, OrderedMap.lookup_reverse, List.filter_map,
    List.getLast?_map, Option.map_map, lastWritten?]
  simp only [Function.comp_def, normalise_eq_iff]

theorem map_toList_written (name : String) (writes : List (String × String)) :
    (written name writes).toList.map (·.1.toList) = forms writes := by
  have names : (written name writes).toList.map Prod.fst =
      (writes.map (normalise ·.1)).eraseDups := by
    rw [settings_written]
    refine (OrderedMap.keys_ofList _).trans ?_
    rw [List.map_map]
    rfl
  have same : forms writes = (writes.map (normalise ·.1)).eraseDups.map String.toList := by
    rw [← eraseDups_map fun _ _ => String.toList_inj.1, List.map_map, forms]
    simp only [Function.comp_def, toList_normalise]
  rw [same, ← names, List.map_map]
  rfl

theorem mem_forms {writes : List (String × String)} {form : List Char} :
    form ∈ forms writes ↔ ∃ w ∈ writes, Text.lower (Text.trim w.1.toList) = form := by
  rw [forms, List.mem_eraseDups, List.mem_map]

/-- What a section lists is found under the name that it is listed with. -/
theorem get?_of_mem_toList {name : String} {writes : List (String × String)} {e : String × String}
    (mem : e ∈ (written name writes).toList) :
    Text.lower (Text.trim e.1.toList) = e.1.toList ∧
      (written name writes).get? e.1 = some e.2 := by
  have listed : e.1.toList ∈ forms writes := by
    rw [← map_toList_written name writes]
    exact List.mem_map_of_mem mem
  obtain ⟨w, -, form⟩ := mem_forms.1 listed
  have normal : Text.lower (Text.trim e.1.toList) = e.1.toList := by
    rw [← form, lower_trim_lower_trim]
  refine ⟨normal, ?_⟩
  rw [get?, normalise, normal, String.ofList_toList]
  exact OrderedMap.get?_eq_some_iff.2 mem

theorem contains_written {name : String} {writes : List (String × String)} {key : String} :
    (written name writes).contains key = true ↔
      Text.lower (Text.trim key.toList) ∈ forms writes := by
  rw [contains, OrderedMap.contains_iff, ← map_toList_written name writes, ← toList_normalise]
  constructor
  · intro mem
    obtain ⟨e, listed, same⟩ := List.mem_map.1 mem
    exact List.mem_map.2 ⟨e, listed, congrArg String.toList same⟩
  · intro mem
    obtain ⟨e, listed, same⟩ := List.mem_map.1 mem
    exact List.mem_map.2 ⟨e, listed, String.toList_inj.1 same⟩

/-- A section is rebuilt from what it lists. -/
theorem written_toList (name : String) (writes : List (String × String)) :
    written name (written name writes).toList = written name writes := by
  have normal : ((written name writes).toList.map fun e => (normalise e.1, e.2)) =
      (written name writes).toList := by
    refine (List.map_congr_left fun e mem => ?_).trans (List.map_id _)
    rw [normalise, (get?_of_mem_toList mem).1, String.ofList_toList]
    rfl
  rw [settings_written name (written name writes).toList, normal]
  show (⟨name, .ofList (written name writes).settings.entries⟩ : Section) = _
  rw [OrderedMap.ofList_entries, settings_written]

theorem same_self (s : Section) : s.same s = true := by
  rw [same, decide_eq_true rfl, OrderedMap.sameEntries_self]
  rfl

end Section

/-- After any writes a section is a map from the normal forms of names to the values that were
written last; the normal form of a name has small letters and no blanks around it. The section lists
the names where they were first written, and it is rebuilt from what it lists. -/
theorem section_keeps_last_writes (name : String) (writes : List (String × String)) :
    (∀ key, (Section.written name writes).get? key =
        Section.lastWritten? writes (Text.lower (Text.trim key.toList)) ∧
      ((Section.written name writes).contains key = true ↔
        ∃ w ∈ writes, Text.lower (Text.trim w.1.toList) = Text.lower (Text.trim key.toList))) ∧
    (Section.written name writes).toList.map (·.1.toList) = Section.forms writes ∧
    (Section.written name writes).size = (Section.forms writes).length ∧
    (∀ e ∈ (Section.written name writes).toList,
      Text.lower (Text.trim e.1.toList) = e.1.toList ∧
        (Section.written name writes).get? e.1 = some e.2 ∧
        Section.lastWritten? writes e.1.toList = some e.2) ∧
    (Section.written name (Section.written name writes).toList).same
      (Section.written name writes) = true ∧
    (Section.written name (Section.written name writes).toList).toList =
      (Section.written name writes).toList := by
  have listed := Section.map_toList_written name writes
  refine ⟨fun key => ⟨Section.get?_written name writes key, ?_⟩, listed, ?_, fun e mem => ?_, ?_,
    ?_⟩
  · rw [Section.contains_written, Section.mem_forms]
  · rw [← listed, List.length_map]
    rfl
  · obtain ⟨normal, found⟩ := Section.get?_of_mem_toList mem
    refine ⟨normal, found, ?_⟩
    rw [← found, Section.get?_written, normal]
  · rw [Section.written_toList, Section.same_self]
  · rw [Section.written_toList]

end AnalysisScheduler
