import AnalysisScheduler.Text.Blank
import AnalysisScheduler.Text.LowercaseRun
import Mathlib.Data.List.Basic
import Mathlib.Data.List.Chain

/-!
# The table of lowercase runs

The small letters of a run are characters, visible ones, and letters of no run
(`LowercaseRun.IsRegular`, `LowercaseRun.covers_eq_false_of_clearOf`): they lie outside of every run
or between the letters of one that has every other letter.
-/

namespace AnalysisScheduler.Text

namespace LowercaseRun

/-- Whether the small letters of `r` lie between the letters of `r'`. -/
def interleaves (r r' : LowercaseRun) : Bool :=
  r'.stride == 2 && (r.stride == 2 || r.first == r.last) && (r.lower r.first + r'.first) % 2 == 1

/-- Whether no run of a list in ascending order has one of the small letters of `r`. -/
def clearOf (r : LowercaseRun) : List LowercaseRun → Bool
  | [] => true
  | r' :: rest =>
    Nat.blt (r.lower r.last) r'.first ||
      ((Nat.blt r'.last (r.lower r.first) || r.interleaves r') && r.clearOf rest)

/-- What holds of the small letters of every run of the table. -/
structure IsRegular (r : LowercaseRun) : Prop where
  pos : 0 < r.lower r.first
  /-- They are characters. -/
  valid : r.lower r.last < 0xD800 ∨ 0xDFFF < r.lower r.first ∧ r.lower r.last < 0x110000
  /-- None of them is the capital whose small form has two characters. -/
  undotted : r.lower r.last < 0x130 ∨ 0x130 < r.lower r.first
  visible : ∀ b ∈ blankRanges, r.lower r.last < b.1 ∨ b.2 < r.lower r.first
  clear : r.clearOf lowercaseRuns = true

theorem isRegular {r : LowercaseRun} (mem : r ∈ lowercaseRuns) : r.IsRegular := by
  have all : ∀ r ∈ lowercaseRuns, 0 < r.lower r.first ∧
      (r.lower r.last < 0xD800 ∨ 0xDFFF < r.lower r.first ∧ r.lower r.last < 0x110000) ∧
      (r.lower r.last < 0x130 ∨ 0x130 < r.lower r.first) ∧
      (∀ b ∈ blankRanges, r.lower r.last < b.1 ∨ b.2 < r.lower r.first) ∧
      r.clearOf lowercaseRuns = true := by decide +kernel
  obtain ⟨pos, valid, undotted, visible, clear⟩ := all r mem
  exact ⟨pos, valid, undotted, visible, clear⟩

/-- The runs are in ascending order. -/
theorem pairwise_first : lowercaseRuns.Pairwise fun r r' => r.first ≤ r'.first := by
  have chain : (lowercaseRuns.map first).IsChain (· ≤ ·) := by decide +kernel
  exact List.pairwise_map.1 (List.isChain_iff_pairwise.1 chain)

theorem covers_iff {r : LowercaseRun} {code : Nat} : r.covers code = true ↔
    r.first ≤ code ∧ code ≤ r.last ∧ (code - r.first) % r.stride = 0 := by
  simp [covers, and_assoc]

theorem lower_bounds {r : LowercaseRun} {code : Nat} (covered : r.covers code = true) :
    r.lower r.first ≤ r.lower code ∧ r.lower code ≤ r.lower r.last := by
  obtain ⟨above, below, -⟩ := covers_iff.1 covered
  unfold lower
  omega

theorem covers_eq_false_of_interleaves {r r' : LowercaseRun} (pos : 0 < r.lower r.first)
    (apart : r.interleaves r' = true) {code : Nat} (covered : r.covers code = true) :
    r'.covers (r.lower code) = false := by
  obtain ⟨above, below, step⟩ := covers_iff.1 covered
  simp only [interleaves, Bool.and_eq_true, Bool.or_eq_true, beq_iff_eq] at apart
  obtain ⟨⟨stride, every⟩, odd⟩ := apart
  refine Bool.eq_false_iff.2 fun both => ?_
  obtain ⟨above', -, step'⟩ := covers_iff.1 both
  rw [stride] at step'
  unfold lower at pos odd above' step'
  rcases every with every | every
  · rw [every] at step
    omega
  · omega

theorem covers_eq_false_of_clearOf {r : LowercaseRun} (pos : 0 < r.lower r.first)
    {rs : List LowercaseRun} (sorted : rs.Pairwise fun r r' => r.first ≤ r'.first)
    (clear : r.clearOf rs = true) {code : Nat} (covered : r.covers code = true) :
    ∀ r' ∈ rs, r'.covers (r.lower code) = false := by
  obtain ⟨least, greatest⟩ := lower_bounds covered
  have outside {r' : LowercaseRun} (apart : r.lower code < r'.first ∨ r'.last < r.lower code) :
      r'.covers (r.lower code) = false := by
    refine Bool.eq_false_iff.2 fun both => ?_
    obtain ⟨above, below, -⟩ := covers_iff.1 both
    omega
  induction rs with
  | nil => exact nofun
  | cons r' rest ih =>
    obtain ⟨first, sorted⟩ := List.pairwise_cons.1 sorted
    simp only [clearOf, Bool.or_eq_true, Bool.and_eq_true, Nat.blt_eq] at clear
    rcases clear with beyond | ⟨apart, clear⟩
    · -- All later runs begin behind the small letters, too.
      refine List.forall_mem_cons.2 ⟨outside (.inl (by omega)), fun r'' mem => outside (.inl ?_)⟩
      have := first r'' mem
      omega
    · refine List.forall_mem_cons.2 ⟨?_, ih sorted clear⟩
      rcases apart with below | between
      · exact outside (.inr (by omega))
      · exact covers_eq_false_of_interleaves pos between covered

end LowercaseRun

end AnalysisScheduler.Text
