import AnalysisScheduler.Number.Decimal

/-!
# Binary floating point numbers, exactly

A finite number is an integer times a power of two (`Binary64.view`), and every fraction has a
nearest number (`Binary64.nearest`), a tie going to the even mantissa. Both are plain arithmetic on
natural numbers.
-/

namespace AnalysisScheduler.Binary64

/-- What a floating point number stands for. -/
inductive View where
  | notANumber
  | infinite (negative : Bool)
  /-- The number is `mantissa` times two to the power `exponent`, less its sign. -/
  | finite (negative : Bool) (mantissa : Nat) (exponent : Int)
deriving DecidableEq, Repr

/-- The least exponent of a finite number. -/
def minExponent : Int := -1074

/-- The mantissas of `normal` numbers lie from here to below twice as much. -/
def implicitBit : Nat := Nat.pow 2 52

def view (x : Float) : View :=
  let bits := x.toBits.toNat
  let negative := decide (Nat.pow 2 63 ≤ bits)
  let biased := bits / implicitBit % 2048
  let fraction := bits % implicitBit
  if biased = 2047 then
    if fraction = 0 then .infinite negative else .notANumber
  else if biased = 0 then .finite negative fraction minExponent
  else .finite negative (implicitBit + fraction) (minExponent + (biased - 1 : Nat))

/-- The number with a sign and the bits of its absolute value. -/
def ofMagnitude (negative : Bool) (magnitude : Nat) : Float :=
  .ofBits (.ofNat (if negative then Nat.pow 2 63 + magnitude else magnitude))

/-- The bits of infinity. -/
def infinityBits : Nat := 2047 * implicitBit

def infinity (negative : Bool) : Float := ofMagnitude negative infinityBits

def zero (negative : Bool) : Float := ofMagnitude negative 0

/-- The integer nearest to `num / den`, the even one of two that are equally near. -/
def roundEven (num den : Nat) : Nat :=
  let below := num / den
  let rest := 2 * (num % den)
  if rest < den then below
  else if den < rest then below + 1
  else if below % 2 = 0 then below else below + 1

/-- A fraction times a power of two, as a fraction. -/
def scaled (num den : Nat) (power : Int) : Nat × Nat :=
  if 0 ≤ power then (num * Nat.pow 2 power.toNat, den) else (num, den * Nat.pow 2 (-power).toNat)

/-- The power of two that is at most the fraction, twice which is beyond it. -/
def log2Floor (num den : Nat) : Int :=
  let guess : Int := num.log2 - den.log2
  let (n, d) := scaled num den (-guess)
  if n < d then guess - 1 else guess

/-- The number nearest to the fraction `num / den`, with a sign. -/
def nearest (negative : Bool) (num den : Nat) : Float :=
  if num = 0 then zero negative else
    let exponent := max minExponent (log2Floor num den - 52)
    let (n, d) := scaled num den (-exponent)
    let magnitude := (exponent - minExponent).toNat * implicitBit + roundEven n d
    ofMagnitude negative (min magnitude infinityBits)

/-- The number nearest to a decimal: its digits as a number, times a power of ten. Decimals far
beyond either end of the range are settled by their length alone. -/
def ofDecimal (negative : Bool) (digits : List Char) (power : Int) : Float :=
  let significant := digits.dropWhile (· = '0')
  let top : Int := significant.length + power
  if significant = [] then zero negative
  else if 310 < top then infinity negative
  else if top < -330 then zero negative
  else
    let n := Decimal.value significant
    if 0 ≤ power then nearest negative (n * Nat.pow 10 power.toNat) 1
    else nearest negative n (Nat.pow 10 (-power).toNat)

/-- The number nearest to an integer. -/
def ofInt (i : Int) : Float := nearest (i < 0) i.natAbs 1

example : (nearest false 1 10).toBits = 0x3fb999999999999a := by decide +kernel
example : (nearest false (2 ^ 53 + 1) 1).toBits = (nearest false (2 ^ 53) 1).toBits := by
  decide +kernel
example : view (nearest true 3 2) = .finite true (3 * 2 ^ 51) (-52) := by decide +kernel

end AnalysisScheduler.Binary64
