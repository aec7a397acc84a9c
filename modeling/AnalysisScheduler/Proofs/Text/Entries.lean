import AnalysisScheduler.Proofs.Text.Blank
import Mathlib.Data.List.Basic

/-!
# Lists in a line

What is read from a line are entries (`IsEntry`): texts without commas and without blanks around
them, none of them empty (`isEntry_of_mem_entries`). Entries that are joined by commas are read
again (`entries_joined`).
-/

namespace AnalysisScheduler.Text

/-! ## Splitting -/

/-- A character that is no separator goes to the first part. -/
theorem exists_splitOn_cons {separator c : Char} (other : c ≠ separator) (cs : List Char) :
    ∃ part parts, cs.splitOn separator = part :: parts ∧
      (c :: cs).splitOn separator = (c :: part) :: parts := by
  obtain ⟨part, parts, split⟩ := List.exists_cons_of_ne_nil (List.splitOn_ne_nil separator cs)
  refine ⟨part, parts, split, ?_⟩
  rw [List.splitOn_cons_eq_if_modifyHead, if_neg (mt eq_of_beq other), split, List.modifyHead_cons]

theorem not_mem_of_mem_splitOn {separator : Char} {cs part : List Char}
    (mem : part ∈ cs.splitOn separator) : separator ∉ part := by
  induction cs generalizing part with
  | nil =>
    rw [List.splitOn_nil, List.mem_singleton] at mem
    exact mem ▸ List.not_mem_nil
  | cons c cs ih =>
    by_cases same : c = separator
    · subst same
      rw [List.splitOn_cons_eq_if_modifyHead, if_pos BEq.rfl] at mem
      rcases List.mem_cons.1 mem with rfl | later
      · exact List.not_mem_nil
      · exact ih later
    · obtain ⟨first, parts, split, whole⟩ := exists_splitOn_cons same cs
      rw [whole] at mem
      rcases List.mem_cons.1 mem with rfl | later
      · refine List.not_mem_cons_of_ne_of_not_mem (Ne.symm same) (ih ?_)
        exact split ▸ List.mem_cons_self
      · exact ih (split ▸ List.mem_cons_of_mem _ later)

/-! ## Entries -/

/-- What an entry of a line may be. -/
structure IsEntry (e : List Char) : Prop where
  nonempty : e ≠ []
  whole : ',' ∉ e
  trimmed : IsTrimmed e

theorem isEntry_of_mem_entries {cs e : List Char} (mem : e ∈ entries cs) : IsEntry e := by
  obtain ⟨listed, nonempty⟩ := List.mem_filter.1 mem
  obtain ⟨part, split, rfl⟩ := List.mem_map.1 listed
  refine ⟨of_decide_eq_true nonempty, fun comma => ?_, isTrimmed_trim part⟩
  refine not_mem_of_mem_splitOn split ?_
  rw [← margins_append part]
  exact List.mem_append_left _ (List.mem_append_right _ comma)

/-- Entries in a line. -/
def joined (es : List (List Char)) : List Char := [',', ' '].intercalate es

theorem joined_singleton (e : List Char) : joined [e] = e := List.intercalate_singleton

theorem joined_cons_cons (e e' : List Char) (es : List (List Char)) :
    joined (e :: e' :: es) = e ++ [',', ' '] ++ joined (e' :: es) := List.intercalate_cons_cons

theorem joined_ne_nil {e : List Char} (nonempty : e ≠ []) (es : List (List Char)) :
    joined (e :: es) ≠ [] := by
  cases es with
  | nil => rwa [joined_singleton]
  | cons e' es =>
    rw [joined_cons_cons, List.append_assoc]
    exact List.append_ne_nil_of_left_ne_nil nonempty _

/-- A text is trimmed if it starts and ends like trimmed ones. -/
theorem IsTrimmed.append {cs cs' : List Char} (front : IsTrimmed cs) (back : IsTrimmed cs')
    (nonempty : cs ≠ []) (nonempty' : cs' ≠ []) (middle : List Char) :
    IsTrimmed (cs ++ middle ++ cs') where
  first c mem := by
    rw [List.append_assoc, List.head?_append_of_ne_nil _ nonempty] at mem
    exact front.first c mem
  last c mem := by
    rw [List.getLast?_append_of_ne_nil _ nonempty'] at mem
    exact back.last c mem

theorem isTrimmed_joined {es : List (List Char)} (legal : ∀ e ∈ es, IsEntry e) :
    IsTrimmed (joined es) := by
  induction es with
  | nil => exact isTrimmed_of_forall nofun
  | cons e es ih =>
    obtain ⟨here, later⟩ := List.forall_mem_cons.1 legal
    cases es with
    | nil =>
      rw [joined_singleton]
      exact here.trimmed
    | cons e' es =>
      have more := joined_ne_nil (later e' List.mem_cons_self).nonempty es
      rw [joined_cons_cons]
      exact here.trimmed.append (ih later) here.nonempty more _

/-- A blank in front of a line belongs to no entry. -/
theorem entries_space (cs : List Char) : entries (' ' :: cs) = entries cs := by
  obtain ⟨part, parts, split, whole⟩ := exists_splitOn_cons (by decide : ' ' ≠ ',') cs
  have blank : ∀ c ∈ [' '], isBlank c = true := List.forall_mem_singleton.2 (by decide +kernel)
  have same : trim (' ' :: part) = trim part := by
    have taken : trim ([' '] ++ part ++ []) = trim part := trim_append blank (List.forall_mem_nil _)
    rwa [List.append_nil] at taken
  rw [entries, entries, whole, split, List.map_cons, List.map_cons, same]

theorem entries_cons_joined {e : List Char} (legal : IsEntry e) (rest : List Char) :
    entries (e ++ ',' :: rest) = e :: entries rest := by
  rw [entries, List.splitOn_append_cons_self_of_not_mem legal.whole, List.map_cons,
    legal.trimmed.trim_eq]
  exact List.filter_cons_of_pos (decide_eq_true legal.nonempty)

/-- Entries are read from a line as they were joined. -/
theorem entries_joined {es : List (List Char)} (legal : ∀ e ∈ es, IsEntry e) :
    entries (joined es) = es := by
  induction es with
  | nil => rfl
  | cons e es ih =>
    obtain ⟨here, later⟩ := List.forall_mem_cons.1 legal
    cases es with
    | nil =>
      rw [joined_singleton, entries, List.splitOn_eq_singleton here.whole, List.map_singleton,
        here.trimmed.trim_eq]
      exact List.filter_cons_of_pos (decide_eq_true here.nonempty)
    | cons e' es =>
      rw [joined_cons_cons, List.append_assoc]
      show entries (e ++ ',' :: ' ' :: joined (e' :: es)) = _
      rw [entries_cons_joined here, entries_space, ih later]

end AnalysisScheduler.Text
