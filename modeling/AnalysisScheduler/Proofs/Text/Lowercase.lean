import AnalysisScheduler.Proofs.Text.Blank
import AnalysisScheduler.Proofs.Text.LowercaseRun
import AnalysisScheduler.Text.Lowercase
import Mathlib.Data.List.Basic

/-!
# Lowercase texts

The small forms of a character are small themselves (`isSmall_of_mem_lowerChar`), so a text in small
letters stays as it is (`lower_lower`). Blanks have no case, no other character turns into one
(`isBlank_of_mem_lowerChar`), and a word ends at a blank as it does at the end of the text. So the
margins of a text do not matter for what is between them (`lower_append`), and trimming and
lowercasing can be exchanged (`trim_lower`).
-/

namespace AnalysisScheduler.Text

/-! ## Characters -/

/-- Characters that lowercasing leaves as they are. -/
def IsSmall (c : Char) : Prop := lowerChar c = [c]

instance : DecidablePred IsSmall := fun c => inferInstanceAs (Decidable (lowerChar c = [c]))

theorem isSmall_of_not_covers {c : Char} (undotted : c ≠ 'İ')
    (none : ∀ r ∈ lowercaseRuns, r.covers c.toNat = false) : IsSmall c := by
  have notFound : lowercaseRuns.find? (·.covers c.toNat) = .none :=
    List.find?_eq_none.2 fun r mem => Bool.eq_false_iff.1 (none r mem)
  unfold IsSmall lowerChar
  rw [if_neg undotted, notFound]

/-- The ways in which a character gets its small forms. -/
theorem mem_lowerChar {c d : Char} (mem : d ∈ lowerChar c) :
    d = 'i' ∨ d = '\u0307' ∨
      (∃ r ∈ lowercaseRuns, r.covers c.toNat = true ∧ d = .ofNat (r.lower c.toNat)) ∨
      d = c ∧ IsSmall c := by
  by_cases small : IsSmall c
  · exact .inr (.inr (.inr ⟨List.mem_singleton.1 (small ▸ mem), small⟩))
  · unfold IsSmall lowerChar at small
    unfold lowerChar at mem
    split at mem
    · rcases List.mem_cons.1 mem with same | mem
      · exact .inl same
      · exact .inr (.inl (List.mem_singleton.1 mem))
    · next undotted =>
      rw [if_neg undotted] at small
      split at mem
      · next r found =>
        have covered : r.covers c.toNat = true :=
          List.find?_some (p := fun r : LowercaseRun => r.covers c.toNat) found
        exact .inr (.inr (.inl
          ⟨r, List.mem_of_find?_eq_some found, covered, List.mem_singleton.1 mem⟩))
      · next notFound => exact absurd (by rw [notFound]) small

/-- The code of a small letter is that of a character. -/
theorem toNat_ofNat_lower {r : LowercaseRun} (mem : r ∈ lowercaseRuns) {code : Nat}
    (covered : r.covers code = true) : (Char.ofNat (r.lower code)).toNat = r.lower code := by
  obtain ⟨least, greatest⟩ := LowercaseRun.lower_bounds covered
  have valid : (r.lower code).isValidChar := by
    rcases (LowercaseRun.isRegular mem).valid with below | ⟨above, below⟩
    · exact .inl (by omega)
    · exact .inr ⟨by omega, by omega⟩
  rw [Char.ofNat, dif_pos valid]
  rfl

theorem isSmall_of_mem_lowerChar {c d : Char} (mem : d ∈ lowerChar c) : IsSmall d := by
  obtain rfl | rfl | ⟨r, run, covered, rfl⟩ | ⟨rfl, small⟩ := mem_lowerChar mem
  · decide +kernel
  · decide +kernel
  · have regular := LowercaseRun.isRegular run
    have code := toNat_ofNat_lower run covered
    obtain ⟨least, greatest⟩ := LowercaseRun.lower_bounds covered
    refine isSmall_of_not_covers (fun dotted => ?_) ?_
    · rw [dotted] at code
      change 0x130 = _ at code
      have := regular.undotted
      omega
    · rw [code]
      exact LowercaseRun.covers_eq_false_of_clearOf regular.pos LowercaseRun.pairwise_first
        regular.clear covered
  · exact small

/-- Blanks have no case, and words end at them. -/
theorem uncased_of_isBlank {c : Char} (blank : isBlank c = true) :
    IsSmall c ∧ isCased c = false ∧ isCaseIgnorable c = false := by
  have all : ∀ b ∈ blankRanges, ∀ n ∈ List.range' b.1 (b.2 + 1 - b.1),
      IsSmall (.ofNat n) ∧ isCased (.ofNat n) = false ∧ isCaseIgnorable (.ofNat n) = false := by
    decide +kernel
  obtain ⟨b, mem, above, below⟩ := CodeRanges.exists_of_covers blank
  have listed : c.toNat ∈ List.range' b.1 (b.2 + 1 - b.1) := List.mem_range'_1.2 (by omega)
  simpa only [Char.ofNat_toNat] using all b mem c.toNat listed

/-- Lowercasing makes no blanks and takes none away. -/
theorem isBlank_of_mem_lowerChar {c d : Char} (mem : d ∈ lowerChar c) : isBlank d = isBlank c := by
  by_cases blank : isBlank c = true
  · have small : lowerChar c = [c] := (uncased_of_isBlank blank).1
    rw [small, List.mem_singleton] at mem
    rw [mem]
  · rw [Bool.eq_false_iff.2 blank]
    obtain rfl | rfl | ⟨r, run, covered, rfl⟩ | ⟨rfl, -⟩ := mem_lowerChar mem
    · decide +kernel
    · decide +kernel
    · refine Bool.eq_false_iff.2 fun now => ?_
      obtain ⟨b, mem, above, below⟩ := CodeRanges.exists_of_covers now
      rw [toNat_ofNat_lower run covered] at above below
      obtain ⟨least, greatest⟩ := LowercaseRun.lower_bounds covered
      have := (LowercaseRun.isRegular run).visible b mem
      omega
    · exact Bool.eq_false_iff.2 blank

/-! ## Texts -/

/-- What becomes of a character between two texts, of which the first is read backwards. -/
def smallForm (before : List Char) (c : Char) (rest : List Char) : List Char :=
  if c = 'Σ' then [if endsWord before rest then 'ς' else 'σ'] else lowerChar c

theorem lowerAfter_cons (before : List Char) (c : Char) (rest : List Char) :
    lowerAfter before (c :: rest) = smallForm before c rest ++ lowerAfter (c :: before) rest := rfl

theorem smallForm_of_isSmall {c : Char} (small : IsSmall c) (before rest : List Char) :
    smallForm before c rest = [c] := by
  have other : c ≠ 'Σ' := by
    rintro rfl
    exact absurd small (by decide +kernel)
  rw [smallForm, if_neg other]
  exact small

theorem lowerChar_ne_nil (c : Char) : lowerChar c ≠ [] := by
  unfold lowerChar
  split
  · exact List.cons_ne_nil _ _
  · split
    · exact List.cons_ne_nil _ _
    · exact List.cons_ne_nil _ _

theorem smallForm_ne_nil (before : List Char) (c : Char) (rest : List Char) :
    smallForm before c rest ≠ [] := by
  unfold smallForm
  split
  · exact List.cons_ne_nil _ _
  · exact lowerChar_ne_nil c

theorem mem_smallForm {before rest : List Char} {c d : Char} (mem : d ∈ smallForm before c rest) :
    IsSmall d ∧ isBlank d = isBlank c := by
  unfold smallForm at mem
  split at mem
  · next sigma =>
    subst sigma
    rw [List.mem_singleton] at mem
    split at mem
    · subst mem
      decide +kernel
    · subst mem
      decide +kernel
  · exact ⟨isSmall_of_mem_lowerChar mem, isBlank_of_mem_lowerChar mem⟩

theorem lowerAfter_of_isSmall (before : List Char) {cs : List Char} (small : ∀ c ∈ cs, IsSmall c) :
    lowerAfter before cs = cs := by
  induction cs generalizing before with
  | nil => rfl
  | cons c rest ih =>
    obtain ⟨here, later⟩ := List.forall_mem_cons.1 small
    rw [lowerAfter_cons, smallForm_of_isSmall here, ih _ later]
    rfl

theorem isSmall_of_mem_lowerAfter {before cs : List Char} {d : Char}
    (mem : d ∈ lowerAfter before cs) : IsSmall d := by
  induction cs generalizing before with
  | nil => cases mem
  | cons c rest ih =>
    rw [lowerAfter_cons, List.mem_append] at mem
    rcases mem with here | later
    · exact (mem_smallForm here).1
    · exact ih later

/-- A text in small letters stays as it is. -/
theorem lower_lower (cs : List Char) : lower (lower cs) = lower cs :=
  lowerAfter_of_isSmall [] fun _ => isSmall_of_mem_lowerAfter

/-! ## Blanks around a text -/

theorem startsCased_cons (c : Char) (rest : List Char) :
    startsCased (c :: rest) = if isCaseIgnorable c then startsCased rest else isCased c := by
  unfold startsCased
  rw [List.dropWhile_cons]
  by_cases ignorable : isCaseIgnorable c = true
  · rw [if_pos ignorable, if_pos ignorable]
  · rw [if_neg ignorable, if_neg ignorable]

/-- Blanks behind a text do not matter for how it starts. -/
theorem startsCased_append {cs blanks : List Char} (blank : ∀ c ∈ blanks, isBlank c = true) :
    startsCased (cs ++ blanks) = startsCased cs := by
  have none : startsCased blanks = false := by
    cases blanks with
    | nil => rfl
    | cons c rest =>
      obtain ⟨-, uncased, counts⟩ := uncased_of_isBlank (blank c List.mem_cons_self)
      rw [startsCased_cons, if_neg (Bool.eq_false_iff.1 counts), uncased]
  induction cs with
  | nil => exact none
  | cons c rest ih => rw [List.cons_append, startsCased_cons, startsCased_cons, ih]

theorem smallForm_append {before rest front back : List Char} {c : Char}
    (blankFront : ∀ c ∈ front, isBlank c = true) (blankBack : ∀ c ∈ back, isBlank c = true) :
    smallForm (before ++ front) c (rest ++ back) = smallForm before c rest := by
  unfold smallForm endsWord
  rw [startsCased_append blankFront, startsCased_append blankBack]

theorem lowerAfter_append_blanks {before cs front back : List Char}
    (blankFront : ∀ c ∈ front, isBlank c = true) (blankBack : ∀ c ∈ back, isBlank c = true) :
    lowerAfter (before ++ front) (cs ++ back) = lowerAfter before cs ++ back := by
  induction cs generalizing before with
  | nil => exact lowerAfter_of_isSmall _ fun c mem => (uncased_of_isBlank (blankBack c mem)).1
  | cons c rest ih =>
    rw [List.cons_append, lowerAfter_cons, lowerAfter_cons, smallForm_append blankFront blankBack,
      ← List.cons_append, ih, List.append_assoc]

theorem lowerAfter_blanks_append {before front : List Char} (cs : List Char)
    (blank : ∀ c ∈ front, isBlank c = true) :
    lowerAfter before (front ++ cs) = front ++ lowerAfter (front.reverse ++ before) cs := by
  induction front generalizing before with
  | nil => rfl
  | cons c rest ih =>
    obtain ⟨here, later⟩ := List.forall_mem_cons.1 blank
    rw [List.cons_append, lowerAfter_cons, smallForm_of_isSmall (uncased_of_isBlank here).1,
      ih later, List.reverse_cons, List.append_assoc]
    rfl

/-- What stands between blanks is lowercased as if it stood alone. -/
theorem lower_append {front cs back : List Char} (blankFront : ∀ c ∈ front, isBlank c = true)
    (blankBack : ∀ c ∈ back, isBlank c = true) :
    lower (front ++ cs ++ back) = front ++ lower cs ++ back := by
  have reversed : ∀ c ∈ front.reverse, isBlank c = true :=
    fun c mem => blankFront c (List.mem_reverse.1 mem)
  have context : lowerAfter front.reverse (cs ++ back) = lowerAfter [] cs ++ back :=
    List.nil_append front.reverse ▸ lowerAfter_append_blanks reversed blankBack
  unfold lower
  rw [List.append_assoc, lowerAfter_blanks_append _ blankFront, List.append_nil, context,
    List.append_assoc]

theorem lowerAfter_ne_nil {before cs : List Char} (nonempty : cs ≠ []) :
    lowerAfter before cs ≠ [] := by
  cases cs with
  | nil => exact absurd rfl nonempty
  | cons c rest =>
    rw [lowerAfter_cons]
    exact List.append_ne_nil_of_left_ne_nil (smallForm_ne_nil before c rest) _

theorem isTrimmed_lowerAfter (before : List Char) {cs : List Char} (trimmed : IsTrimmed cs) :
    IsTrimmed (lowerAfter before cs) where
  first d mem := by
    cases cs with
    | nil => cases mem
    | cons c rest =>
      rw [lowerAfter_cons, List.head?_append_of_ne_nil _ (smallForm_ne_nil before c rest)] at mem
      rw [(mem_smallForm (List.mem_of_mem_head? mem)).2]
      exact trimmed.first c rfl
  last d mem := by
    -- The last small form is that of the last character.
    have lasts := trimmed.last
    clear trimmed
    induction cs generalizing before with
    | nil => cases mem
    | cons c rest ih =>
      rw [lowerAfter_cons, List.getLast?_append] at mem
      cases rest with
      | nil =>
        rw [(mem_smallForm (List.mem_of_mem_getLast? mem)).2]
        exact lasts c rfl
      | cons c' rest =>
        have more : lowerAfter (c :: before) (c' :: rest) ≠ [] :=
          lowerAfter_ne_nil (List.cons_ne_nil _ _)
        rw [List.getLast?_eq_some_getLast more, Option.some_or,
          ← List.getLast?_eq_some_getLast more] at mem
        exact ih _ mem lasts

/-- The blanks around a text stay where they are. -/
theorem lower_eq_append (cs : List Char) :
    lower cs = blanksBefore cs ++ lower (trim cs) ++ blanksBehind cs := by
  conv => lhs; rw [← margins_append cs]
  exact lower_append (fun _ => isBlank_of_mem_blanksBefore) fun _ => isBlank_of_mem_blanksBehind

/-- Trimming and lowercasing can be exchanged. -/
theorem trim_lower (cs : List Char) : trim (lower cs) = lower (trim cs) := by
  rw [lower_eq_append,
    trim_append (fun _ => isBlank_of_mem_blanksBefore) fun _ => isBlank_of_mem_blanksBehind]
  exact (isTrimmed_lowerAfter [] (isTrimmed_trim cs)).trim_eq

theorem margins_lower (cs : List Char) :
    blanksBefore (lower cs) = blanksBefore cs ∧ blanksBehind (lower cs) = blanksBehind cs := by
  have whole := lower_eq_append cs
  by_cases nothing : trim cs = []
  · have same : lower cs = cs := by
      rw [whole, nothing]
      conv => rhs; rw [← margins_append cs, nothing]
      rfl
    rw [same]
    exact ⟨rfl, rfl⟩
  · rw [whole]
    exact margins_eq (fun _ => isBlank_of_mem_blanksBefore) (fun _ => isBlank_of_mem_blanksBehind)
      (isTrimmed_lowerAfter [] (isTrimmed_trim cs)) (lowerAfter_ne_nil nothing)

/-! ## Names -/

theorem lowered_lowered (name : String) : lowered (lowered name) = lowered name := by
  rw [lowered, lowered, String.toList_ofList, lower_lower]

/-- Names with the same blanks around them. -/
def SameMargins (name name' : String) : Prop :=
  blanksBefore name.toList = blanksBefore name'.toList ∧
    blanksBehind name.toList = blanksBehind name'.toList

instance (name name' : String) : Decidable (SameMargins name name') :=
  inferInstanceAs (Decidable (_ ∧ _))

end AnalysisScheduler.Text
