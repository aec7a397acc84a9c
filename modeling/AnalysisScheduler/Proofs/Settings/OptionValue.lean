import AnalysisScheduler.Proofs.Text.Entries
import AnalysisScheduler.Settings.OptionValue

/-!
# Option values are read as they are shown

A value of any kind but a number is read from the text that shows it (`OptionKind.parse?_display`).
Every integer is a value, and the lists that are values are those of entries
(`OptionKind.exists_parse?_list_iff`).
-/

namespace AnalysisScheduler

/-- No numeral has blanks around it. -/
theorem Signed64.isTrimmed_digits (i : Int64) : Text.IsTrimmed (digits i) := by
  refine Text.isTrimmed_of_forall fun c mem => ?_
  have digit {n : Nat} (mem : c ∈ Decimal.digits n) : Text.isBlank c = false :=
    Text.isBlank_of_isDigit (List.all_eq_true.1 (Decimal.all_isDigit_digits n) c mem)
  unfold digits at mem
  split at mem
  · rcases List.mem_cons.1 mem with rfl | mem
    · decide +kernel
    · exact digit mem
  · exact digit mem

namespace OptionKind

/-! ## Values of each kind -/

theorem parse?_integer (raw : String) :
    integer.parse? raw = (Signed64.read? (Text.trim raw.toList)).map .integer := rfl

theorem parse?_boolean (raw : String) :
    boolean.parse? raw = (parseBoolean? (Text.trim raw.toList)).map .boolean := rfl

theorem parse?_list (raw : String) :
    list.parse? raw = some (.list ((Text.entries (Text.trim raw.toList)).map .ofList)) := rfl

theorem parse?_integer_display (i : Int64) :
    integer.parse? (OptionValue.integer i).display = some (.integer i) := by
  have shown : (OptionValue.integer i).display.toList = Signed64.digits i := String.toList_ofList
  rw [parse?_integer, shown, (Signed64.isTrimmed_digits i).trim_eq, Signed64.read?_digits,
    Option.map_some]

theorem parse?_boolean_display (b : Bool) :
    boolean.parse? (OptionValue.boolean b).display = some (.boolean b) := by
  have read : parseBoolean? (Text.trim (OptionValue.boolean b).display.toList) = some b := by
    cases b with
    | false => decide +kernel
    | true => decide +kernel
  rw [parse?_boolean, read, Option.map_some]

theorem parse?_list_display {es : List String} (legal : ∀ e ∈ es, Text.IsEntry e.toList) :
    list.parse? (OptionValue.list es).display = some (.list es) := by
  have shown : (OptionValue.list es).display.toList = Text.joined (es.map String.toList) :=
    String.toList_intercalate
  have legal : ∀ e ∈ es.map String.toList, Text.IsEntry e := List.forall_mem_map.2 legal
  have whole : (es.map String.toList).map String.ofList = es := by
    rw [List.map_map]
    exact (List.map_congr_left fun e _ => String.ofList_toList).trans (List.map_id es)
  rw [parse?_list, shown, (Text.isTrimmed_joined legal).trim_eq, Text.entries_joined legal, whole]

/-- The lists that are values are those of entries. -/
theorem exists_parse?_list_iff {v : OptionValue} : (∃ raw, list.parse? raw = some v) ↔
    ∃ es : List String, v = .list es ∧ ∀ e ∈ es, Text.IsEntry e.toList := by
  constructor
  · rintro ⟨raw, read⟩
    rw [parse?_list] at read
    refine ⟨_, (Option.some.inj read).symm, fun e mem => ?_⟩
    obtain ⟨cs, entry, rfl⟩ := List.mem_map.1 mem
    rw [String.toList_ofList]
    exact Text.isEntry_of_mem_entries entry
  · rintro ⟨es, rfl, legal⟩
    exact ⟨_, parse?_list_display legal⟩

/-- What is read as a value is shown in a way that is read as the same value. -/
theorem parse?_display {kind : OptionKind} (exact : kind ≠ number) {raw : String} {v : OptionValue}
    (read : kind.parse? raw = some v) : kind.parse? v.display = some v := by
  cases kind with
  | text =>
    cases read
    rfl
  | integer =>
    obtain ⟨i, -, rfl⟩ := Option.map_eq_some_iff.1 read
    exact parse?_integer_display i
  | number => exact absurd rfl exact
  | boolean =>
    obtain ⟨b, -, rfl⟩ := Option.map_eq_some_iff.1 read
    exact parse?_boolean_display b
  | list =>
    obtain ⟨es, rfl, legal⟩ := exists_parse?_list_iff.1 ⟨raw, read⟩
    exact parse?_list_display legal

end OptionKind

/-- Texts, integers, booleans and lists are read as they are shown. Every integer is such a value,
and the lists among the values are those of entries. -/
theorem values_read_as_shown :
    (∀ (kind : OptionKind) (raw : String) (v : OptionValue), kind ≠ .number →
      kind.parse? raw = some v → kind.parse? v.display = some v) ∧
    (∀ i : Int64, OptionKind.integer.parse? (OptionValue.integer i).display = some (.integer i)) ∧
    (∀ v : OptionValue, (∃ raw, OptionKind.list.parse? raw = some v) ↔
      ∃ es : List String, v = .list es ∧ ∀ e ∈ es, Text.IsEntry e.toList) ∧
    ∀ es : List String, (∀ e ∈ es, Text.IsEntry e.toList) →
      OptionKind.list.parse? (OptionValue.list es).display = some (.list es) :=
  ⟨fun _ _ _ exact read => OptionKind.parse?_display exact read, OptionKind.parse?_integer_display,
    fun _ => OptionKind.exists_parse?_list_iff, fun _ legal => OptionKind.parse?_list_display legal⟩

/-- A list that was written with stray commas and blanks. -/
theorem values_read_as_shown_of_list :
    OptionKind.list.parse? " *.pyc, ,build dir/ ," = some (.list ["*.pyc", "build dir/"]) ∧
      OptionKind.list.parse? (OptionValue.list ["*.pyc", "build dir/"]).display =
        some (.list ["*.pyc", "build dir/"]) := by
  have entries : (Text.entries (Text.trim " *.pyc, ,build dir/ ,".toList)).map String.ofList =
      ["*.pyc", "build dir/"] := by decide +kernel
  have read : OptionKind.list.parse? " *.pyc, ,build dir/ ," =
      some (.list ["*.pyc", "build dir/"]) := by
    rw [OptionKind.parse?_list, entries]
  exact ⟨read, values_read_as_shown.1 .list _ _ (by decide) read⟩

end AnalysisScheduler
