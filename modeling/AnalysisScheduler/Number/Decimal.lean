/-!
# Decimal numerals

Natural numbers in decimal digits, and back. Main statements: reading a written number gives the
number (`value_digits`), and what is written has digits only and at least one of them.
-/

namespace AnalysisScheduler.Decimal

/-- The digit for a value below ten. -/
def digit (d : Nat) : Char := Char.ofNat (48 + d)

/-- A number in decimal, without leading zeros. -/
def digits (n : Nat) : List Char :=
  if n < 10 then [digit n] else digits (n / 10) ++ [digit (n % 10)]

/-- What a sequence of digits is worth; leading zeros do not matter. -/
def value (ds : List Char) : Nat := ds.foldl (fun n d => 10 * n + (d.toNat - 48)) 0

/-- Reads one or more digits, with any number of leading zeros. -/
def read? (cs : List Char) : Option Nat :=
  if cs ≠ [] ∧ cs.all Char.isDigit then some (value cs) else none

/-- `digits` as a string. -/
def text (n : Nat) : String := .ofList (digits n)

/-- A text after its sign, and whether the sign was a minus. A plus is optional. -/
def splitSign : List Char → Bool × List Char
  | '-' :: cs => (true, cs)
  | '+' :: cs => (false, cs)
  | cs => (false, cs)

theorem digit_toNat {d : Nat} (h : d < 10) : (digit d).toNat = 48 + d := by
  have all : ∀ d, d < 10 → (digit d).toNat = 48 + d := by decide
  exact all d h

theorem isDigit_digit {d : Nat} (h : d < 10) : (digit d).isDigit = true := by
  have all : ∀ d, d < 10 → (digit d).isDigit = true := by decide
  exact all d h

theorem value_append_singleton (ds : List Char) (d : Char) :
    value (ds ++ [d]) = 10 * value ds + (d.toNat - 48) := by
  simp [value, List.foldl_append]

theorem value_digits (n : Nat) : value (digits n) = n := by
  fun_induction digits n with
  | case1 n h => simp [value, digit_toNat h]
  | case2 n h ih =>
    rw [value_append_singleton, ih, digit_toNat (Nat.mod_lt n (by decide))]
    omega

theorem digits_ne_nil (n : Nat) : digits n ≠ [] := by
  unfold digits
  split <;> simp

theorem all_isDigit_digits (n : Nat) : (digits n).all Char.isDigit = true := by
  fun_induction digits n with
  | case1 n h => simp [isDigit_digit h]
  | case2 n h ih =>
    rw [List.all_append, ih]
    simp [isDigit_digit (Nat.mod_lt n (by decide : 0 < 10))]

/-- Digits have no sign in front. -/
theorem splitSign_digits (n : Nat) : splitSign (digits n) = (false, digits n) := by
  have all := all_isDigit_digits n
  unfold splitSign
  split
  · next same =>
    rw [same] at all
    cases all
  · next same =>
    rw [same] at all
    cases all
  · rfl

theorem read?_digits (n : Nat) : read? (digits n) = some n := by
  unfold read?
  rw [if_pos ⟨digits_ne_nil n, all_isDigit_digits n⟩, value_digits]

end AnalysisScheduler.Decimal
