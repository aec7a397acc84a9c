import AnalysisScheduler.Number.Signed64
import Mathlib.Data.List.Induction
import Mathlib.Data.Nat.Digits.Defs

/-!
# Numerals

The texts that are read as numbers, told by their form alone: digits, of which the first ones may be
zeros (`Decimal.IsNumeral`), and for signed numbers one sign in front of them or none
(`Signed64.IsNumeral`). The readers accept exactly these, as long as the number can be held
(`Decimal.read?_eq_some_iff`, `Signed64.read?_eq_some_iff`).
-/

namespace AnalysisScheduler

namespace Decimal

/-- One digit or more, the last one for the units, that stand for a number. -/
structure IsNumeral (ds : List Char) (n : Nat) : Prop where
  nonempty : ds ≠ []
  digits : ∀ d ∈ ds, d.isDigit = true
  worth : Nat.ofDigits 10 (ds.reverse.map fun d => d.toNat - '0'.toNat) = n

theorem ofDigits_eq_value (ds : List Char) :
    Nat.ofDigits 10 (ds.reverse.map fun d => d.toNat - '0'.toNat) = value ds := by
  induction ds using List.reverseRecOn with
  | nil => rfl
  | append_singleton ds d ih =>
    rw [value_append_singleton, ← ih, List.reverse_append, List.reverse_singleton,
      List.singleton_append, List.map_cons, Nat.ofDigits_cons, Nat.add_comm]
    rfl

theorem read?_eq_some_iff {cs : List Char} {n : Nat} : read? cs = some n ↔ IsNumeral cs n := by
  unfold read?
  constructor
  · intro read
    split at read
    · next legal =>
      exact ⟨legal.1, List.all_eq_true.1 legal.2,
        (ofDigits_eq_value cs).trans (Option.some.inj read)⟩
    · cases read
  · rintro ⟨nonempty, digits, worth⟩
    rw [if_pos ⟨nonempty, List.all_eq_true.2 digits⟩, ← ofDigits_eq_value, worth]

/-- What stands in front of a sign and behind it. -/
theorem splitSign_cases (cs : List Char) :
    (∃ ds, cs = '-' :: ds ∧ splitSign cs = (true, ds)) ∨
      (∃ ds, cs = '+' :: ds ∧ splitSign cs = (false, ds)) ∨ splitSign cs = (false, cs) := by
  unfold splitSign
  split
  · next ds => exact .inl ⟨ds, rfl, rfl⟩
  · next ds => exact .inr (.inl ⟨ds, rfl, rfl⟩)
  · exact .inr (.inr rfl)

theorem IsNumeral.splitSign_eq {ds : List Char} {n : Nat} (numeral : IsNumeral ds n) :
    splitSign ds = (false, ds) := by
  rcases splitSign_cases ds with ⟨_, rfl, -⟩ | ⟨_, rfl, -⟩ | plain
  · exact absurd (numeral.digits _ List.mem_cons_self) (by decide)
  · exact absurd (numeral.digits _ List.mem_cons_self) (by decide)
  · exact plain

end Decimal

namespace Signed64

/-- A numeral with a sign or without, and the number that it stands for. -/
inductive IsNumeral : List Char → Int → Prop
  | plain {ds : List Char} {n : Nat} : Decimal.IsNumeral ds n → IsNumeral ds n
  | plus {ds : List Char} {n : Nat} : Decimal.IsNumeral ds n → IsNumeral ('+' :: ds) n
  | minus {ds : List Char} {n : Nat} : Decimal.IsNumeral ds n → IsNumeral ('-' :: ds) (-n)

/-- The digits behind a sign, which give the number. -/
theorem exists_of_read? {cs ds : List Char} {negative : Bool} {i : Int64}
    (sign : Decimal.splitSign cs = (negative, ds)) (read : read? cs = some i) :
    ∃ n, Decimal.IsNumeral ds n ∧ i.toInt = if negative then (-n : Int) else n := by
  unfold read? at read
  rw [sign] at read
  obtain ⟨n, number, read⟩ := Option.bind_eq_some_iff.1 read
  obtain ⟨fits, held⟩ := Option.ite_none_right_eq_some.1 read
  refine ⟨n, Decimal.read?_eq_some_iff.1 number, ?_⟩
  rw [← Option.some.inj held]
  exact Int64.toInt_ofInt_of_le fits.1 fits.2

theorem isNumeral_of_read? {cs : List Char} {i : Int64} (read : read? cs = some i) :
    IsNumeral cs i.toInt := by
  rcases Decimal.splitSign_cases cs with ⟨ds, rfl, sign⟩ | ⟨ds, rfl, sign⟩ | sign
  · obtain ⟨n, numeral, worth⟩ := exists_of_read? sign read
    rw [worth]
    exact .minus numeral
  · obtain ⟨n, numeral, worth⟩ := exists_of_read? sign read
    rw [worth]
    exact .plus numeral
  · obtain ⟨n, numeral, worth⟩ := exists_of_read? sign read
    rw [worth]
    exact .plain numeral

/-- A number is read exactly from its numerals. -/
theorem read?_eq_some_iff {cs : List Char} {i : Int64} :
    read? cs = some i ↔ IsNumeral cs i.toInt := by
  refine ⟨isNumeral_of_read?, fun numeral => ?_⟩
  generalize worth : i.toInt = j at numeral
  cases numeral with
  | plain numeral =>
    exact read?_eq_some numeral.splitSign_eq (Decimal.read?_eq_some_iff.2 numeral) worth.symm
  | plus numeral => exact read?_eq_some rfl (Decimal.read?_eq_some_iff.2 numeral) worth.symm
  | minus numeral => exact read?_eq_some rfl (Decimal.read?_eq_some_iff.2 numeral) worth.symm

end Signed64

end AnalysisScheduler
