import AnalysisScheduler.Number.Binary64

/-!
# The fewest digits that read back

A finite number stands for the interval of reals that round to it. Among the decimals in the
interval, `shortest` takes one with the fewest digits, and of those the one nearest to the number.
On the grid of decimals with a given digit count only the two neighbours of the number can be meant,
so it tries these for one digit, for two, and so on; seventeen are always enough.
-/

namespace AnalysisScheduler.Shortest

/-- A positive number and the ends of the interval that rounds to it, over one denominator. -/
structure Interval where
  low : Nat
  value : Nat
  high : Nat
  unit : Nat
  /-- Whether the two ends themselves round to the number. -/
  closed : Bool

/-- The interval of `mantissa` times two to the power `exponent`. Below a power of two the next
number is only half as far away as above it. -/
def interval (mantissa : Nat) (exponent : Int) : Interval :=
  let gap := if mantissa = Binary64.implicitBit ∧ Binary64.minExponent < exponent then 1 else 2
  let quarter := exponent - 2
  let up := Nat.pow 2 quarter.toNat
  { low := (4 * mantissa - gap) * up
    value := 4 * mantissa * up
    high := (4 * mantissa + 2) * up
    unit := Nat.pow 2 (-quarter).toNat
    closed := mantissa % 2 = 0 }

/-- The interval in units of a power of ten. -/
def Interval.inUnits (i : Interval) (power : Int) : Interval :=
  let up := Nat.pow 10 (-power).toNat
  { i with low := i.low * up, value := i.value * up, high := i.high * up,
           unit := i.unit * Nat.pow 10 power.toNat }

def Interval.has (i : Interval) (n : Nat) : Bool :=
  let x := n * i.unit
  if i.closed then i.low ≤ x && x ≤ i.high else i.low < x && x < i.high

/-- The whole number in the interval that is nearest to the value; of two equally near ones the
greater. -/
def Interval.nearestWhole? (i : Interval) : Option Nat :=
  let below := i.value / i.unit
  let above := below + 1
  match i.has below, i.has above with
  | true, true =>
    some (if above * i.unit - i.value ≤ i.value - below * i.unit then above else below)
  | true, false => some below
  | false, true => some above
  | false, false => none

/-- How many digits the value has before the point; zero or less for a value below one tenth. -/
def Interval.wholeDigits (i : Interval) : Int :=
  if i.unit ≤ i.value then (Decimal.digits (i.value / i.unit)).length
  else
    let places := (Decimal.digits (i.unit / i.value)).length
    if i.unit ≤ i.value * Nat.pow 10 (places - 1) then 2 - places else 1 - places

/-- A decimal: `0.d₁d₂…` times ten to the power `point`. -/
structure Digits where
  digits : List Char
  point : Int
deriving DecidableEq, Repr

/-- The decimal `n` times ten to the power `power`, without zeros at the end of its digits. -/
def Digits.ofNat (n : Nat) (power : Int) : Digits :=
  let ds := Decimal.digits n
  ⟨(ds.reverse.dropWhile (· = '0')).reverse, ds.length + power⟩

/-- The shortest decimal of `mantissa` times two to the power `exponent`. -/
def shortest (mantissa : Nat) (exponent : Int) : Digits :=
  let i := interval mantissa exponent
  let whole := i.wholeDigits
  let found := (List.range 17).findSome? fun count =>
    let power := whole - (count + 1 : Nat)
    ((i.inUnits power).nearestWhole?).map (Digits.ofNat · power)
  found.getD ⟨[], 0⟩

end AnalysisScheduler.Shortest
