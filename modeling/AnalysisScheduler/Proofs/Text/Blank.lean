import AnalysisScheduler.Text.Blank
import Mathlib.Data.List.DropRight
import Mathlib.Data.List.TakeWhile

/-!
# Texts and the blanks around them

Every text is a trimmed one between two margins of blanks (`margins_append`). A trimmed text has no
blank at either end (`isTrimmed_trim`, `IsTrimmed.trim_eq`), and blanks that are put around a text
are taken away again (`trim_append`).
-/

namespace AnalysisScheduler.Text

/-! ## Ranges -/

theorem CodeRanges.exists_of_covers {rs : CodeRanges} {code : Nat}
    (covered : rs.covers code = true) : ∃ r ∈ rs, r.1 ≤ code ∧ code ≤ r.2 := by
  fun_induction covers rs code with
  | case1 => cases covered
  | case2 => cases covered
  | case3 first last _ _ notBelow within =>
    exact ⟨(first, last), List.mem_cons_self, Nat.le_of_not_lt notBelow, within⟩
  | case4 _ _ _ _ _ _ ih =>
    obtain ⟨r, mem, bounds⟩ := ih covered
    exact ⟨r, List.mem_cons_of_mem _ mem, bounds⟩

theorem isBlank_of_isDigit {c : Char} (digit : c.isDigit = true) : isBlank c = false := by
  have apart : ∀ r ∈ blankRanges, r.2 < '0'.toNat ∨ '9'.toNat < r.1 := by decide
  obtain ⟨low, high⟩ := Char.isDigit_iff_toNat.1 digit
  refine Bool.eq_false_iff.2 fun blank => ?_
  obtain ⟨r, mem, above, below⟩ := CodeRanges.exists_of_covers blank
  have := apart r mem
  omega

/-! ## Trimmed texts -/

/-- Without a blank at either end. -/
structure IsTrimmed (cs : List Char) : Prop where
  first : ∀ c ∈ cs.head?, isBlank c = false
  last : ∀ c ∈ cs.getLast?, isBlank c = false

theorem trimEnd_eq_rdropWhile (cs : List Char) : trimEnd cs = cs.rdropWhile isBlank := rfl

theorem isTrimmed_of_forall {cs : List Char} (none : ∀ c ∈ cs, isBlank c = false) :
    IsTrimmed cs where
  first c mem := none c (List.mem_of_mem_head? mem)
  last c mem := none c (List.mem_of_mem_getLast? mem)

theorem IsTrimmed.trim_eq {cs : List Char} (trimmed : IsTrimmed cs) : trim cs = cs := by
  have front : trimStart cs = cs := by
    cases cs with
    | nil => rfl
    | cons c rest =>
      exact List.dropWhile_cons_of_neg (by rw [trimmed.first c rfl]; exact Bool.false_ne_true)
  have back : trimEnd cs = cs := by
    refine List.rdropWhile_eq_self_iff.2 fun nonempty => ?_
    rw [trimmed.last _ (List.getLast?_eq_some_getLast nonempty)]
    exact Bool.false_ne_true
  rw [trim, front, back]

theorem isTrimmed_trim (cs : List Char) : IsTrimmed (trim cs) where
  first c mem := by
    -- What is left at the front was there before the blanks at the end were taken away.
    obtain ⟨blanks, whole⟩ := List.rdropWhile_prefix (p := isBlank) (l := trimStart cs)
    have front : c ∈ (trimStart cs).head? := by
      rw [← whole]
      exact List.mem_head?_append_of_mem_head? mem
    have stops := List.head?_dropWhile_not isBlank cs
    rw [show (cs.dropWhile isBlank).head? = some c from front] at stops
    exact stops
  last c mem := by
    obtain ⟨nonempty, rfl⟩ := List.mem_getLast?_eq_getLast mem
    exact Bool.eq_false_iff.2 (List.rdropWhile_last_not isBlank _ nonempty)

theorem trim_trim (cs : List Char) : trim (trim cs) = trim cs := (isTrimmed_trim cs).trim_eq

/-! ## Margins -/

/-- The blanks in front of a text. -/
def blanksBefore (cs : List Char) : List Char := cs.takeWhile isBlank

/-- The blanks behind a text. In a text of blanks they are all in front. -/
def blanksBehind (cs : List Char) : List Char := (trimStart cs).rtakeWhile isBlank

theorem isBlank_of_mem_blanksBefore {cs : List Char} {c : Char} (mem : c ∈ blanksBefore cs) :
    isBlank c = true := List.mem_takeWhile_imp mem

theorem isBlank_of_mem_blanksBehind {cs : List Char} {c : Char} (mem : c ∈ blanksBehind cs) :
    isBlank c = true := List.mem_rtakeWhile_imp mem

theorem margins_append (cs : List Char) : blanksBefore cs ++ trim cs ++ blanksBehind cs = cs := by
  rw [List.append_assoc, trim, trimEnd_eq_rdropWhile, blanksBehind,
    List.rdropWhile_append_rtakeWhile]
  exact List.takeWhile_append_dropWhile

theorem trim_append {before cs behind : List Char} (front : ∀ c ∈ before, isBlank c = true)
    (back : ∀ c ∈ behind, isBlank c = true) : trim (before ++ cs ++ behind) = trim cs := by
  have noFront : before.dropWhile isBlank = [] := List.dropWhile_eq_nil_iff.2 front
  have noBack : behind.reverse.dropWhile isBlank = [] :=
    List.dropWhile_eq_nil_iff.2 fun c mem => back c (List.mem_reverse.1 mem)
  have start : trimStart (before ++ cs ++ behind) = (cs ++ behind).dropWhile isBlank := by
    rw [trimStart, List.append_assoc, List.dropWhile_append, noFront]
    rfl
  rw [trim, start, List.dropWhile_append]
  split
  · next empty =>
    have blank : behind.dropWhile isBlank = [] := List.dropWhile_eq_nil_iff.2 back
    rw [blank, trim, trimStart, List.isEmpty_iff.1 empty]
  · rw [trimEnd, List.reverse_append, List.dropWhile_append, noBack]
    rfl

/-- The margins of a text that is not blank are the blanks around what is left of it. -/
theorem margins_eq {before cs behind : List Char} (front : ∀ c ∈ before, isBlank c = true)
    (back : ∀ c ∈ behind, isBlank c = true) (trimmed : IsTrimmed cs) (nonempty : cs ≠ []) :
    blanksBefore (before ++ cs ++ behind) = before ∧
      blanksBehind (before ++ cs ++ behind) = behind := by
  have first : ¬ isBlank (cs.head nonempty) = true :=
    Bool.eq_false_iff.1 (trimmed.first _ (List.head?_eq_some_head nonempty))
  have last : ¬ isBlank (cs.getLast nonempty) = true :=
    Bool.eq_false_iff.1 (trimmed.last _ (List.getLast?_eq_some_getLast nonempty))
  have start : (cs ++ behind).takeWhile isBlank = [] ∧
      (cs ++ behind).dropWhile isBlank = cs ++ behind := by
    rw [← List.cons_head_tail nonempty, List.cons_append]
    exact ⟨List.takeWhile_cons_of_neg first, List.dropWhile_cons_of_neg first⟩
  constructor
  · rw [blanksBefore, List.append_assoc, List.takeWhile_append_of_pos front, start.1,
      List.append_nil]
  · have noEnd : cs.rtakeWhile isBlank = [] := List.rtakeWhile_eq_nil_iff.2 fun _ => last
    rw [blanksBehind, trimStart, List.append_assoc, List.dropWhile_append_of_pos front, start.2,
      List.rtakeWhile, List.reverse_append,
      List.takeWhile_append_of_pos fun c mem => back c (List.mem_reverse.1 mem),
      List.reverse_append, List.reverse_reverse]
    exact (congrArg (· ++ behind) noEnd).trans (List.nil_append behind)

end AnalysisScheduler.Text
