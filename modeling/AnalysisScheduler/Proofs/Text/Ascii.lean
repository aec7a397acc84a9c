import AnalysisScheduler.Proofs.Text.Lowercase

/-!
# Lowercase texts in ASCII

Within ASCII, lowercasing is a map of single letters (`lowerAfter_of_isAscii`). From outside only
two letters get there: the Kelvin sign, which turns into a `k`, and the dotted capital, which turns
into an `i` with a mark. A word without these two is the small form of its ASCII spellings and of no
other text (`lower_eq_iff_of_isPlain`).
-/

namespace AnalysisScheduler.Text

/-! ## Characters -/

def IsAscii (c : Char) : Prop := c.toNat < 0x80

instance : DecidablePred IsAscii := fun c => inferInstanceAs (Decidable (c.toNat < 0x80))

/-- An ASCII character that no character outside of ASCII turns into. -/
def IsPlain (c : Char) : Prop := IsAscii c ∧ c ≠ 'i' ∧ c ≠ 'k'

instance : DecidablePred IsPlain := fun _ => inferInstanceAs (Decidable (_ ∧ _))

def asciiCapitals : LowercaseRun := ⟨0x41, 0x5A, 1, 32⟩

/-- Of the runs only the first one has letters in ASCII. -/
theorem find?_lowercaseRuns_of_isAscii {c : Char} (ascii : IsAscii c) :
    lowercaseRuns.find? (·.covers c.toNat) = [asciiCapitals].find? (·.covers c.toNat) := by
  have beyond : ∀ r ∈ lowercaseRuns.tail, 0x80 ≤ r.first := by decide +kernel
  have notFound : lowercaseRuns.tail.find? (·.covers c.toNat) = none := by
    refine List.find?_eq_none.2 fun r mem covered => ?_
    have least := beyond r mem
    have above := (LowercaseRun.covers_iff.1 covered).1
    unfold IsAscii at ascii
    omega
  have split : lowercaseRuns = [asciiCapitals] ++ lowercaseRuns.tail := rfl
  rw [split, List.find?_append, notFound, Option.or_none]

theorem lowerChar_of_isAscii {c : Char} (ascii : IsAscii c) : lowerChar c = [c.toLower] := by
  have undotted : c ≠ 'İ' := by
    rintro rfl
    exact absurd ascii (by decide)
  have all : ∀ n < 0x80, (Char.ofNat n).toLower =
      .ofNat (if asciiCapitals.covers n then asciiCapitals.lower n else n) := by decide +kernel
  have small := all c.toNat ascii
  rw [Char.ofNat_toNat] at small
  rw [small, lowerChar, if_neg undotted, find?_lowercaseRuns_of_isAscii ascii,
    List.find?_singleton]
  by_cases capital : asciiCapitals.covers c.toNat
  · rw [if_pos capital, if_pos capital]
  · rw [if_neg capital, if_neg capital, Char.ofNat_toNat]

/-- Only the ASCII capitals and the Kelvin sign have a small letter in ASCII. -/
theorem LowercaseRun.last_or_lower {r : LowercaseRun} (mem : r ∈ lowercaseRuns)
    (low : r.lower r.first < 0x80) :
    r.last < 0x80 ∨ r.lower r.first = 'k'.toNat ∧ r.lower r.last = 'k'.toNat := by
  have all : ∀ r ∈ lowercaseRuns, r.lower r.first < 0x80 →
      r.last < 0x80 ∨ r.lower r.first = 'k'.toNat ∧ r.lower r.last = 'k'.toNat := by
    decide +kernel
  exact all r mem low

theorem isAscii_of_mem_lowerChar {c d : Char} (mem : d ∈ lowerChar c) (plain : IsPlain d) :
    IsAscii c := by
  obtain ⟨ascii, notI, notK⟩ := plain
  obtain rfl | rfl | ⟨r, run, covered, rfl⟩ | ⟨rfl, -⟩ := mem_lowerChar mem
  · exact absurd rfl notI
  · exact absurd ascii (by decide)
  · obtain ⟨least, greatest⟩ := LowercaseRun.lower_bounds covered
    have code := toNat_ofNat_lower run covered
    unfold IsAscii at ascii
    rw [code] at ascii
    rcases LowercaseRun.last_or_lower run (by omega) with below | ⟨first, last⟩
    · have := (LowercaseRun.covers_iff.1 covered).2.1
      unfold IsAscii
      omega
    · -- The run of the Kelvin sign has no other letter.
      refine absurd (Char.toNat_inj.1 ?_) notK
      omega
  · exact ascii

theorem isAscii_of_isAscii_toLower {c : Char} (ascii : IsAscii c.toLower) : IsAscii c := by
  unfold Char.toLower at ascii
  split at ascii
  · next upper =>
    have last : c.toNat ≤ 'Z'.toNat := upper.2
    exact Nat.lt_of_le_of_lt last (by decide)
  · exact ascii

/-! ## Texts -/

theorem smallForm_of_isAscii {c : Char} (ascii : IsAscii c) (before rest : List Char) :
    smallForm before c rest = [c.toLower] := by
  have other : c ≠ 'Σ' := by
    rintro rfl
    exact absurd ascii (by decide)
  rw [smallForm, if_neg other, lowerChar_of_isAscii ascii]

theorem isAscii_of_mem_smallForm {before rest : List Char} {c d : Char}
    (mem : d ∈ smallForm before c rest) (plain : IsPlain d) : IsAscii c := by
  unfold smallForm at mem
  split at mem
  · rw [List.mem_singleton] at mem
    split at mem
    · subst mem
      exact absurd plain (by decide)
    · subst mem
      exact absurd plain (by decide)
  · exact isAscii_of_mem_lowerChar mem plain

theorem lowerAfter_of_isAscii {before cs : List Char} (ascii : ∀ c ∈ cs, IsAscii c) :
    lowerAfter before cs = cs.map Char.toLower := by
  induction cs generalizing before with
  | nil => rfl
  | cons c rest ih =>
    obtain ⟨here, later⟩ := List.forall_mem_cons.1 ascii
    rw [lowerAfter_cons, smallForm_of_isAscii here, ih later]
    rfl

theorem isAscii_of_mem {before cs : List Char} (plain : ∀ d ∈ lowerAfter before cs, IsPlain d) :
    ∀ c ∈ cs, IsAscii c := by
  induction cs generalizing before with
  | nil => exact nofun
  | cons c rest ih =>
    rw [lowerAfter_cons, List.forall_mem_append] at plain
    obtain ⟨d, mem⟩ := List.exists_mem_of_ne_nil _ (smallForm_ne_nil before c rest)
    exact List.forall_mem_cons.2
      ⟨isAscii_of_mem_smallForm mem (plain.1 d mem), ih plain.2⟩

/-- A plain word is the small form of its ASCII spellings only. -/
theorem lower_eq_iff_of_isPlain {cs word : List Char} (plain : ∀ d ∈ word, IsPlain d) :
    lower cs = word ↔ cs.map Char.toLower = word := by
  constructor
  · rintro rfl
    exact (lowerAfter_of_isAscii (isAscii_of_mem plain)).symm
  · rintro rfl
    exact lowerAfter_of_isAscii fun c mem =>
      isAscii_of_isAscii_toLower (plain _ (List.mem_map_of_mem mem)).1

end AnalysisScheduler.Text
