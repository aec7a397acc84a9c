import AnalysisScheduler.Number.Decimal

/-!
# Signed 64-bit numerals

An optional sign and decimal digits, for a number that fits in 64 bits.
-/

namespace AnalysisScheduler.Signed64

/-- Whether a number can be held. -/
def InRange (i : Int) : Prop := -(Nat.pow 2 63 : Int) ≤ i ∧ i < Nat.pow 2 63

instance (i : Int) : Decidable (InRange i) := inferInstanceAs (Decidable (_ ∧ _))

/-- Reads a numeral; none if it is malformed or its number does not fit. -/
def read? (cs : List Char) : Option Int64 :=
  let (negative, ds) := Decimal.splitSign cs
  (Decimal.read? ds).bind fun n =>
    let i : Int := if negative then -n else n
    if InRange i then some (.ofInt i) else none

/-- The numeral of a number: a minus if it is negative, and its digits. -/
def digits (i : Int64) : List Char :=
  if i.toInt < 0 then '-' :: Decimal.digits i.toInt.natAbs else Decimal.digits i.toInt.natAbs

/-- `digits` as a string. -/
def text (i : Int64) : String := .ofList (digits i)

theorem inRange_toInt (i : Int64) : InRange i.toInt := ⟨i.le_toInt, i.toInt_lt⟩

theorem read?_eq_some {cs ds : List Char} {negative : Bool} {n : Nat} {i : Int64}
    (sign : Decimal.splitSign cs = (negative, ds)) (number : Decimal.read? ds = some n)
    (worth : (if negative then -n else n : Int) = i.toInt) : read? cs = some i := by
  unfold read?
  rw [sign]
  show (Decimal.read? ds).bind _ = _
  rw [number]
  show (if InRange (if negative then -n else n : Int) then some (Int64.ofInt _) else none) = _
  rw [worth, if_pos (inRange_toInt i), Int64.ofInt_toInt]

/-- Every number is read from its numeral. -/
theorem read?_digits (i : Int64) : read? (digits i) = some i := by
  have number := Decimal.read?_digits i.toInt.natAbs
  unfold digits
  by_cases negative : i.toInt < 0
  · rw [if_pos negative]
    refine read?_eq_some (show Decimal.splitSign _ = (true, _) from rfl) number ?_
    rw [if_pos rfl]
    omega
  · rw [if_neg negative]
    refine read?_eq_some (Decimal.splitSign_digits _) number ?_
    rw [if_neg Bool.false_ne_true]
    omega

example : read? "+007".toList = some 7 := by decide +kernel
example : read? "-9223372036854775808".toList = some Int64.minValue := by decide +kernel
example : read? "9223372036854775808".toList = none := by decide +kernel
example : read? "+".toList = none := by decide +kernel

end AnalysisScheduler.Signed64
